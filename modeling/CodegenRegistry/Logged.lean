import CodegenRegistry.Event
/-!
# Computations that report

A computation reports events and ends in a value or an error. What was reported before a failure
stays reported.
-/

namespace CodegenRegistry

structure Logged (ε α : Type) where
  log : List Event
  result : Except ε α

theorem mapError_eq_ok_iff {ε ε' α : Type} {x : Except ε α} {f : ε → ε'} {a : α} :
    x.mapError f = .ok a ↔ x = .ok a := by
  cases x <;> constructor <;> intro h <;> cases h <;> rfl

theorem mapError_eq_error_iff {ε ε' α : Type} {x : Except ε α} {f : ε → ε'} {e' : ε'} :
    x.mapError f = .error e' ↔ ∃ e, x = .error e ∧ f e = e' := by
  constructor
  · intro h
    cases x with
    | error e => exact ⟨e, rfl, Except.error.inj h⟩
    | ok a => cases h
  · intro h
    obtain ⟨e, rfl, rfl⟩ := h
    rfl

namespace Logged

variable {ε α β : Type}

def report (e : Event) : Logged ε Unit := ⟨[e], .ok ()⟩

def fail (e : ε) : Logged ε α := ⟨[], .error e⟩

def ofExcept (x : Except ε α) : Logged ε α := ⟨[], x⟩

def andThen (x : Logged ε α) (f : α → Logged ε β) : Logged ε β :=
  match x.result with
  | .ok a => ⟨x.log ++ (f a).log, (f a).result⟩
  | .error e => ⟨x.log, .error e⟩

instance : Monad (Logged ε) where
  pure a := ⟨[], .ok a⟩
  bind := andThen

@[simp] theorem log_pure (a : α) : (pure a : Logged ε α).log = [] := rfl

@[simp] theorem result_pure (a : α) : (pure a : Logged ε α).result = .ok a := rfl

@[simp] theorem log_report (e : Event) : (report e : Logged ε Unit).log = [e] := rfl

@[simp] theorem result_report (e : Event) : (report e : Logged ε Unit).result = .ok () := rfl

@[simp] theorem log_fail (e : ε) : (fail e : Logged ε α).log = [] := rfl

@[simp] theorem result_fail (e : ε) : (fail e : Logged ε α).result = .error e := rfl

@[simp] theorem log_ofExcept (x : Except ε α) : (ofExcept x).log = [] := rfl

@[simp] theorem result_ofExcept (x : Except ε α) : (ofExcept x).result = x := rfl

@[simp] theorem result_bind (x : Logged ε α) (f : α → Logged ε β) :
    (x >>= f).result = x.result.bind fun a => (f a).result := by
  show (andThen x f).result = _
  rw [andThen]
  cases x.result <;> rfl

theorem log_bind_of_ok {x : Logged ε α} {a : α} (f : α → Logged ε β) (h : x.result = .ok a) :
    (x >>= f).log = x.log ++ (f a).log := by
  show (andThen x f).log = _
  rw [andThen, h]

theorem log_bind_of_error {x : Logged ε α} {e : ε} (f : α → Logged ε β)
    (h : x.result = .error e) : (x >>= f).log = x.log := by
  show (andThen x f).log = _
  rw [andThen, h]

private theorem bind_assoc' {γ : Type} (x : Logged ε α) (f : α → Logged ε β)
    (g : β → Logged ε γ) : andThen (andThen x f) g = andThen x fun a => andThen (f a) g := by
  obtain ⟨log, result⟩ := x
  cases result with
  | error e => rfl
  | ok a =>
      simp only [andThen]
      cases (f a).result <;> simp

instance : LawfulMonad (Logged ε) :=
  LawfulMonad.mk' _
    (fun ⟨log, result⟩ => by cases result <;> simp [Functor.map, andThen])
    (fun a f => by simp [bind, pure, andThen])
    bind_assoc'

end Logged

end CodegenRegistry
