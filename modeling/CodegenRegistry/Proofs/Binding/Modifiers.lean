import CodegenRegistry.Proofs.Binding.Matching
/-!
# Modified parameters

A parameter may be modified any number of times. A map acts on the decoder and on the default, and
a new default on itself alone, so the two have different histories. Main statement: the decoder has
seen all of the maps, and the default those that came after it was set. What is rejected stays the
same.
-/

namespace CodegenRegistry

variable {R α β γ : Type}

/-- Modifiers of a parameter, in the order in which they are applied. Each starts from the type of
values that the one before leads to. -/
inductive Modifiers : Type → Type → Type 1
  | nil {α : Type} : Modifiers α α
  | map {α β γ : Type} (f : α → β) (rest : Modifiers β γ) : Modifiers α γ
  | withDefault {α γ : Type} (d : α) (rest : Modifiers α γ) : Modifiers α γ

namespace Modifiers

def apply {α β : Type} : Modifiers α β → Parameter R α → Parameter R β
  | nil, p => p
  | map f rest, p => rest.apply (p.map f)
  | withDefault d rest, p => rest.apply (p.withDefault d)

def function {α β : Type} : Modifiers α β → α → β
  | nil => id
  | map f rest => rest.function ∘ f
  | withDefault _ rest => rest.function

def append {α β γ : Type} : Modifiers α β → Modifiers β γ → Modifiers α γ
  | nil, others => others
  | map f rest, others => .map f (rest.append others)
  | withDefault d rest, others => .withDefault d (rest.append others)

def IsMaps {α β : Type} : Modifiers α β → Prop
  | nil => True
  | map _ rest => rest.IsMaps
  | withDefault _ _ => False

/-- What becomes of a default: it passes through all of the maps, unless it is replaced. Of the
replacements the last one counts, and it passes through the maps after it. -/
inductive LeavesDefault (original : α) : Modifiers α β → β → Prop
  | kept {ms : Modifiers α β} (hmaps : ms.IsMaps) : LeavesDefault original ms (ms.function original)
  | replaced {γ : Type} (before : Modifiers α γ) (d : γ) {after : Modifiers γ β}
      (hmaps : after.IsMaps) :
      LeavesDefault original (before.append (.withDefault d after)) (after.function d)

theorem apply_append (ms : Modifiers α β) (others : Modifiers β γ) (p : Parameter R α) :
    (ms.append others).apply p = others.apply (ms.apply p) := by
  induction ms with
  | nil => rfl
  | map f rest ih => exact ih others (p.map f)
  | withDefault d rest ih => exact ih others (p.withDefault d)

@[simp] theorem name_apply (ms : Modifiers α β) (p : Parameter R α) :
    (ms.apply p).name = p.name := by
  induction ms with
  | nil => rfl
  | map f rest ih => exact ih (p.map f)
  | withDefault d rest ih => exact ih (p.withDefault d)

@[simp] theorem expected_apply (ms : Modifiers α β) (p : Parameter R α) :
    (ms.apply p).expected = p.expected := by
  induction ms with
  | nil => rfl
  | map f rest ih => exact ih (p.map f)
  | withDefault d rest ih => exact ih (p.withDefault d)

theorem decode_apply (ms : Modifiers α β) (p : Parameter R α) (raw : R) :
    (ms.apply p).decode raw = (p.decode raw).map ms.function := by
  induction ms with
  | nil => exact Option.map_id_apply.symm
  | map f rest ih =>
      calc (rest.apply (p.map f)).decode raw
          = ((p.decode raw).map f).map rest.function := ih (p.map f)
        _ = (p.decode raw).map (rest.function ∘ f) := Option.map_map _ _ _
  | withDefault d rest ih => exact ih (p.withDefault d)

theorem default_of_isMaps {ms : Modifiers α β} (h : ms.IsMaps) (p : Parameter R α) :
    (ms.apply p).default = ms.function p.default := by
  induction ms with
  | nil => rfl
  | map f rest ih => exact ih h (p.map f)
  | withDefault d rest ih => exact h.elim

theorem exists_leavesDefault (ms : Modifiers α β) (original : α) :
    ∃ v, ms.LeavesDefault original v := by
  induction ms with
  | nil => exact ⟨original, .kept trivial⟩
  | map f rest ih =>
      obtain ⟨v, hv⟩ := ih (f original)
      cases hv with
      | kept hmaps =>
          have hmaps' : (Modifiers.map f rest).IsMaps := hmaps
          exact ⟨_, .kept hmaps'⟩
      | replaced before d hmaps => exact ⟨_, .replaced (.map f before) d hmaps⟩
  | withDefault d rest ih =>
      obtain ⟨v, hv⟩ := ih d
      cases hv with
      | kept hmaps => exact ⟨_, .replaced .nil d hmaps⟩
      | replaced before d' hmaps => exact ⟨_, .replaced (.withDefault d before) d' hmaps⟩

theorem default_of_leavesDefault {ms : Modifiers α β} {p : Parameter R α} {v : β}
    (h : ms.LeavesDefault p.default v) : (ms.apply p).default = v := by
  cases h with
  | kept hmaps => exact default_of_isMaps hmaps p
  | @replaced _ before d after hmaps =>
      rw [apply_append]
      exact default_of_isMaps hmaps ((before.apply p).withDefault d)

theorem default_apply_eq_iff {ms : Modifiers α β} {p : Parameter R α} {v : β} :
    (ms.apply p).default = v ↔ ms.LeavesDefault p.default v := by
  constructor
  · intro h
    obtain ⟨w, hw⟩ := ms.exists_leavesDefault p.default
    rwa [← h, default_of_leavesDefault hw]
  · exact default_of_leavesDefault

end Modifiers

/-! ## Binding -/

structure Parameter.RejectsLike (p : Parameter R α) (q : Parameter R β) : Prop where
  name : p.name = q.name
  expected : p.expected = q.expected
  decode : ∀ raw, p.decode raw = none ↔ q.decode raw = none

namespace Parameter.RejectsLike

@[refl] theorem refl (p : Parameter R α) : p.RejectsLike p := ⟨rfl, rfl, fun _ => Iff.rfl⟩

theorem symm {p : Parameter R α} {q : Parameter R β} (h : p.RejectsLike q) : q.RejectsLike p :=
  ⟨h.name.symm, h.expected.symm, fun raw => (h.decode raw).symm⟩

theorem trans {p : Parameter R α} {q : Parameter R β} {o : Parameter R γ} (hpq : p.RejectsLike q)
    (hqo : q.RejectsLike o) : p.RejectsLike o :=
  ⟨hpq.name.trans hqo.name, hpq.expected.trans hqo.expected,
    fun raw => (hpq.decode raw).trans (hqo.decode raw)⟩

end Parameter.RejectsLike

theorem Modifiers.apply_rejectsLike (ms : Modifiers α β) (p : Parameter R α) :
    (ms.apply p).RejectsLike p where
  name := ms.name_apply p
  expected := ms.expected_apply p
  decode raw := by rw [decode_apply, Option.map_eq_none_iff]

namespace Schema

variable [RawValue R]

theorem bindOne_eq_error_iff_of_rejectsLike {p : Parameter R α} {q : Parameter R β}
    (h : p.RejectsLike q) {args : List (Argument R)} {e : Rejection} :
    bindOne args p = .error e ↔ bindOne args q = .error e := by
  unfold bindOne
  rw [h.name, h.expected]
  cases Argument.find? args q.name with
  | none => simp
  | some arg =>
      have hdecode := h.decode arg.value
      cases hp : p.decode arg.value <;> cases hq : q.decode arg.value <;> simp_all

theorem bind_eq_error_iff_of_rejectsLike {s : Schema R α} {s' : Schema R β}
    (h : List.Forall₂ Parameter.RejectsLike s.params s'.params) {args : List (Argument R)}
    {e : Rejection} : s.bind args = .error e ↔ s'.bind args = .error e := by
  unfold bind
  apply mapM_eq_error_congr
  apply h.imp
  intro p q hpq e
  exact bindOne_eq_error_iff_of_rejectsLike hpq

theorem exists_replaced {s : Schema R α} {before after : List (Parameter R α)}
    {p q : Parameter R α} (hs : s.params = before ++ p :: after) (h : q.RejectsLike p) :
    ∃ s' : Schema R α, s'.params = before ++ q :: after ∧ s'.names = s.names ∧
      ∀ args e, s'.bind args = .error e ↔ s.bind args = .error e := by
  have hnames : (before ++ q :: after).map Parameter.name = s.names := by
    rw [names, hs, List.map_append, List.map_append, List.map_cons, List.map_cons, h.name]
  have hsame : ∀ ps : List (Parameter R α), List.Forall₂ Parameter.RejectsLike ps ps :=
    fun _ => List.forall₂_same.2 fun p _ => .refl p
  have halike : List.Forall₂ Parameter.RejectsLike (before ++ q :: after) s.params := by
    rw [hs]
    exact List.rel_append (hsame before) (.cons h (hsame after))
  refine ⟨⟨before ++ q :: after, hnames ▸ s.distinct⟩, rfl, hnames, ?_⟩
  intro args e
  exact bind_eq_error_iff_of_rejectsLike halike

end Schema

/-- However often a parameter is modified, its name and its expectation stay, its decoder is the
original one followed by all of the maps, and its default is what the modifiers leave of the
original one. In a schema, whose type of values it may be made to fit before and after, it rejects
what it rejected before, and with the same error. -/
theorem Parameter.modifiers_compose [RawValue R] (p : Parameter R α) (ms : Modifiers α β) :
    (ms.apply p).name = p.name ∧ (ms.apply p).expected = p.expected ∧
      (∀ raw, (ms.apply p).decode raw = (p.decode raw).map ms.function) ∧
      (∀ v, (ms.apply p).default = v ↔ ms.LeavesDefault p.default v) ∧
      ∀ (V : Type) (fit : Modifiers α V) (fit' : Modifiers β V) (s : Schema R V)
        (before after : List (Parameter R V)), s.params = before ++ fit.apply p :: after →
        ∃ s' : Schema R V, s'.params = before ++ fit'.apply (ms.apply p) :: after ∧
          s'.names = s.names ∧ ∀ args e, s'.bind args = .error e ↔ s.bind args = .error e := by
  refine ⟨ms.name_apply p, ms.expected_apply p, ms.decode_apply p,
    fun _ => Modifiers.default_apply_eq_iff, ?_⟩
  intro V fit fit' s before after hs
  have hfit : (fit'.apply (ms.apply p)).RejectsLike (fit.apply p) :=
    ((fit'.apply_rejectsLike (ms.apply p)).trans (ms.apply_rejectsLike p)).trans
      (fit.apply_rejectsLike p).symm
  exact Schema.exists_replaced hs hfit

/-- The maps before the new default act on decoded values alone. -/
example :
    let p : Parameter String Nat := ⟨"n", "a text", fun raw => some raw.length, 7⟩
    let ms : Modifiers Nat (List Nat) :=
      .map (· + 1) (.withDefault 0 (.map (· * 2) (.map (fun n => [n]) .nil)))
    (ms.apply p).default = [0] ∧ (ms.apply p).decode "abc" = some [8] := by
  decide

end CodegenRegistry
