import CodegenRegistry.Proofs.Loops
/-!
# Two runs in lockstep

A result follows another if both are values, related by one relation, or both are errors, related
by another. Some errors may be lost, and then nothing is asked of the result that should follow.
Computations whose steps follow each other follow each other as a whole.
-/

namespace CodegenRegistry

theorem exists_of_rel {α β : Type} {R : α → β → Prop} {a : α} {y : Option β}
    (h : Option.Rel R (some a) y) : ∃ b, y = some b ∧ R a b := by
  cases h with
  | some hrel => exact ⟨_, rfl, hrel⟩

theorem eq_none_of_rel {α β : Type} {R : α → β → Prop} {y : Option β}
    (h : Option.Rel R none y) : y = none := by
  cases h with
  | none => rfl

/-- The second result follows the first: values are related by `R` and errors by `E`. After an
error that is `lost` it may be anything. -/
inductive Follows {ε α β : Type} (lost : ε → Prop) (E : ε → ε → Prop) (R : α → β → Prop) :
    Except ε α → Except ε β → Prop
  | value {a : α} {b : β} (hvalue : R a b) : Follows lost E R (.ok a) (.ok b)
  | fault {e e' : ε} (hfault : E e e') : Follows lost E R (.error e) (.error e')
  | lost {e : ε} {y : Except ε β} (hlost : lost e) : Follows lost E R (.error e) y

namespace Follows

variable {ε ε' α β γ δ : Type} {lost : ε → Prop} {E : ε → ε → Prop} {R : α → β → Prop}
  {S : γ → δ → Prop} {x : Except ε α} {y : Except ε β}

theorem refl (hE : ∀ e, E e e) (x : Except ε α) : Follows lost E Eq x x := by
  cases x with
  | ok a => exact .value rfl
  | error e => exact .fault (hE e)

theorem of_ok {a : α} (h : Follows lost E R x y) (hx : x = .ok a) : ∃ b, y = .ok b ∧ R a b := by
  subst hx
  cases h with
  | value hvalue => exact ⟨_, rfl, hvalue⟩

theorem of_error {e : ε} (h : Follows lost E R x y) (hx : x = .error e) (hkept : ¬ lost e) :
    ∃ e', y = .error e' ∧ E e e' := by
  subst hx
  cases h with
  | fault hfault => exact ⟨_, rfl, hfault⟩
  | lost hlost => exact absurd hlost hkept

theorem bind {f : α → Except ε γ} {g : β → Except ε δ} (h : Follows lost E R x y)
    (hnext : ∀ a b, R a b → Follows lost E S (f a) (g b)) :
    Follows lost E S (x.bind f) (y.bind g) := by
  cases h with
  | value hvalue => exact hnext _ _ hvalue
  | fault hfault => exact .fault hfault
  | lost hlost => exact .lost hlost

theorem map {f : α → γ} {g : β → δ} (h : Follows lost E R x y)
    (hmap : ∀ a b, R a b → S (f a) (g b)) : Follows lost E S (x.map f) (y.map g) := by
  cases h with
  | value hvalue => exact .value (hmap _ _ hvalue)
  | fault hfault => exact .fault hfault
  | lost hlost => exact .lost hlost

theorem mapError {lost' : ε' → Prop} {E' : ε' → ε' → Prop} {f g : ε → ε'}
    (h : Follows lost E R x y) (hlost : ∀ e, lost e → lost' (f e))
    (hfault : ∀ e e', E e e' → E' (f e) (g e')) :
    Follows lost' E' R (x.mapError f) (y.mapError g) := by
  cases h with
  | value hvalue => exact .value hvalue
  | fault he => exact .fault (hfault _ _ he)
  | lost he => exact .lost (hlost _ he)

theorem error_or_ok (h : Follows lost Eq R x y) (hkept : ∀ e, ¬ lost e) :
    (∃ e, x = .error e ∧ y = .error e) ∨ ∃ a b, x = .ok a ∧ y = .ok b ∧ R a b := by
  cases h with
  | value hvalue => exact .inr ⟨_, _, rfl, rfl, hvalue⟩
  | fault hfault => exact .inl ⟨_, rfl, hfault ▸ rfl⟩
  | lost hlost => exact absurd hlost (hkept _)

/-- Where nothing is lost, related values with the same image make the results the same. -/
theorem map_eq {f : α → γ} {g : β → γ} (h : Follows lost Eq R x y) (hkept : ∀ e, ¬ lost e)
    (hmap : ∀ a b, R a b → f a = g b) : x.map f = y.map g := by
  rcases h.error_or_ok hkept with ⟨e, rfl, rfl⟩ | ⟨a, b, rfl, rfl, hvalue⟩
  · rfl
  · exact congrArg Except.ok (hmap a b hvalue)

end Follows

namespace Logged

variable {ε α β γ δ : Type} {lost : ε → Prop} {E : ε → ε → Prop} {R : α → β → Prop}
  {S : γ → δ → Prop}

theorem follows_bind {x : Logged ε α} {y : Logged ε β} {f : α → Logged ε γ} {g : β → Logged ε δ}
    (h : Follows lost E R x.result y.result)
    (hnext : ∀ a b, R a b → Follows lost E S (f a).result (g b).result) :
    Follows lost E S (x >>= f).result (y >>= g).result := by
  rw [result_bind, result_bind]
  exact h.bind hnext

theorem follows_forM {f : α → Logged ε Unit} {g : β → Logged ε Unit} {l : List α} {l' : List β}
    (hl : List.Forall₂ R l l')
    (hstep : ∀ a b, R a b → Follows lost E Eq (f a).result (g b).result) :
    Follows lost E Eq (forM l f).result (forM l' g).result := by
  induction hl with
  | nil => exact .value rfl
  | cons hhead _ ih =>
      rw [List.forM_cons, List.forM_cons]
      exact follows_bind (hstep _ _ hhead) fun _ _ _ => ih

theorem follows_foldlM {f : γ → α → Logged ε γ} {g : δ → β → Logged ε δ} {l : List α}
    {l' : List β} (hl : List.Forall₂ R l l')
    (hstep : ∀ c d a b, S c d → R a b → Follows lost E S (f c a).result (g d b).result)
    {c : γ} {d : δ} (hstart : S c d) :
    Follows lost E S (l.foldlM f c).result (l'.foldlM g d).result := by
  induction hl generalizing c d with
  | nil => exact .value hstart
  | cons hhead _ ih =>
      rw [List.foldlM_cons, List.foldlM_cons]
      exact follows_bind (hstep _ _ _ _ hstart hhead) fun _ _ hnext => ih hnext

end Logged

end CodegenRegistry
