import CodegenRegistry.Generator
import CodegenRegistry.Proofs.Binding.Matching
/-!
# Binding along a schema

A schema binds its parameters in the order in which they were added, whatever the arguments look
like. Main statement: each parameter is bound to what it makes of the first argument of its name, or
to its default, and the first parameter that rejects decides. All other arguments play no part.
-/

namespace CodegenRegistry

variable {R V : Type}

namespace Argument

theorem written_of_label? {arg : Argument R} {label : String} (h : arg.label? = some label) :
    arg.written = some label := by
  rw [label?, Option.filter_eq_some_iff] at h
  exact h.1

theorem label?_congr {arg arg' : Argument R} (h : arg.written = arg'.written) :
    arg.label? = arg'.label? := by
  rw [label?, label?, h]

/-- An argument plays no part in the look-up of a label unless it is the first one under it. -/
theorem find?_append_cons {before after : List (Argument R)} {arg : Argument R} {label : String}
    (h : arg.label? = some label → ∃ earlier ∈ before, earlier.label? = some label) :
    find? (before ++ arg :: after) label = find? (before ++ after) label := by
  simp only [find?, List.find?_append]
  by_cases hlabel : arg.label? = some label
  · obtain ⟨earlier, hmem, hearlier⟩ := h hlabel
    have hfound : (before.find? fun a => a.label? = some label).isSome := by
      simpa using ⟨earlier, hmem, hearlier⟩
    obtain ⟨first, hfirst⟩ := Option.isSome_iff_exists.1 hfound
    simp [hfirst]
  · simp [hlabel]

end Argument

namespace Schema

/-! ## Adding parameters -/

theorem add_of_not_mem {s : Schema R V} {p : Parameter R V} (h : p.name ∉ s.names) :
    ∃ s', s.add p = .ok s' ∧ s'.params = s.params ++ [p] := by
  rw [add, dif_neg h]
  exact ⟨_, rfl, rfl⟩

theorem foldlM_add_of_nodup {s : Schema R V} {ps : List (Parameter R V)}
    (h : ((s.params ++ ps).map Parameter.name).Nodup) :
    ∃ s', ps.foldlM add s = .ok s' ∧ s'.params = s.params ++ ps := by
  induction ps generalizing s with
  | nil => exact ⟨s, rfl, (List.append_nil _).symm⟩
  | cons p ps ih =>
      have hnew : p.name ∉ s.names := by
        rw [List.map_append, List.nodup_append] at h
        intro hmem
        exact h.2.2 _ hmem _ (by simp) rfl
      obtain ⟨next, hnext, hparams⟩ := add_of_not_mem hnew
      have hsplit : next.params ++ ps = s.params ++ p :: ps := by simp [hparams]
      obtain ⟨last, hlast, hall⟩ := ih (s := next) (by rwa [hsplit])
      refine ⟨last, ?_, by rw [hall, hsplit]⟩
      rw [List.foldlM_cons, hnext]
      exact hlast

theorem ofParameters_of_nodup {ps : List (Parameter R V)}
    (h : (ps.map Parameter.name).Nodup) : ∃ s, ofParameters ps = .ok s ∧ s.params = ps :=
  foldlM_add_of_nodup (s := empty) h

/-! ## Binding what was added -/

variable [RawValue R]

theorem bind_eq_ok_iff_yields {s : Schema R V} {args : List (Argument R)} {values : List V} :
    s.bind args = .ok values ↔
      List.Forall₂ (fun p v => p.Yields args (.ok v)) s.params values := by
  simp only [bind, mapM_eq_ok_iff, bindOne_eq_iff]

theorem bind_eq_error_iff_yields {s : Schema R V} {args : List (Argument R)} {e : Rejection} :
    s.bind args = .error e ↔
      ∃ p, IsFirst (fun p => ∃ e', p.Yields args (.error e')) p s.params ∧
        p.Yields args (.error e) := by
  simp only [bind, mapM_eq_error_iff, bindOne_eq_iff]

theorem exists_bind_eq_ok_iff {s : Schema R V} {args : List (Argument R)} :
    (∃ values, s.bind args = .ok values) ↔ ∀ p ∈ s.params, ∀ e, ¬ p.Yields args (.error e) := by
  constructor
  · intro h p hp e hyields
    obtain ⟨values, hvalues⟩ := h
    obtain ⟨q, hq⟩ := IsFirst.exists_of_mem (P := fun p => ∃ e, p.Yields args (.error e)) hp
      ⟨e, hyields⟩
    obtain ⟨e', hyields'⟩ := hq.holds
    have herror := bind_eq_error_iff_yields.2 ⟨q, hq, hyields'⟩
    rw [hvalues] at herror
    cases herror
  · intro h
    cases hbind : s.bind args with
    | ok values => exact ⟨values, rfl⟩
    | error e =>
        obtain ⟨p, hp, hyields⟩ := bind_eq_error_iff_yields.1 hbind
        exact absurd hyields (h p hp.mem e)

/-- An argument that was passed without a label or with an empty one, that no parameter is called
after, or that comes after another one of its label makes no difference. -/
theorem bind_append_cons {s : Schema R V} {before after : List (Argument R)} {arg : Argument R}
    (h : arg.written = none ∨ arg.written = some "" ∨ (∀ p ∈ s.params, arg.written ≠ some p.name) ∨
      ∃ earlier ∈ before, earlier.written = arg.written) :
    s.bind (before ++ arg :: after) = s.bind (before ++ after) := by
  apply bind_congr
  intro name hname
  apply Argument.find?_append_cons
  intro hlabel
  have hwritten : arg.written = some name := Argument.written_of_label? hlabel
  rcases h with hnone | hempty | hundeclared | ⟨earlier, hmem, hsame⟩
  · simp [hnone] at hwritten
  · obtain rfl : "" = name := by simpa [hempty] using hwritten
    exact absurd rfl (Argument.ne_empty_of_label? hlabel)
  · obtain ⟨p, hp, rfl⟩ := List.mem_map.1 hname
    exact absurd hwritten (hundeclared p hp)
  · exact ⟨earlier, hmem, (Argument.label?_congr hsame).trans hlabel⟩

end Schema

/-- Parameters with distinct names make a schema, and that binds them one after the other: to what
they yield, in the order in which they were added, if none of them rejects, and else it fails as the
first of them that does. A generator hands exactly these values to its handler, and none if binding
fails. Arguments without a label or under other labels make no difference, nor do those that come
after another one of their label. -/
theorem Schema.bind_in_order {H : Host} {ps : List (Parameter H.Raw H.Value)}
    (hdistinct : (ps.map Parameter.name).Nodup) :
    ∃ s : Schema H.Raw H.Value, ofParameters ps = .ok s ∧
      (∀ args values, s.bind args = .ok values ↔
        List.Forall₂ (fun p v => p.Yields args (.ok v)) ps values) ∧
      (∀ args, (∃ values, s.bind args = .ok values) ↔
        ∀ p ∈ ps, ∀ e, ¬ p.Yields args (.error e)) ∧
      (∀ args e, s.bind args = .error e ↔
        ∃ p, IsFirst (fun p => ∃ e', p.Yields args (.error e')) p ps ∧
          p.Yields args (.error e)) ∧
      (∀ (g : Generator H) context declaration args, g.schema = s →
        (∀ values, s.bind args = .ok values →
          g.run context declaration args = .ok (g.produce context declaration values)) ∧
        ∀ e, s.bind args = .error e → g.run context declaration args = .error e) ∧
      ∀ (before after : List (Argument H.Raw)) (arg : Argument H.Raw),
        (arg.written = none ∨ arg.written = some "" ∨ (∀ p ∈ ps, arg.written ≠ some p.name) ∨
          ∃ earlier ∈ before, earlier.written = arg.written) →
        s.bind (before ++ arg :: after) = s.bind (before ++ after) := by
  obtain ⟨s, hs, rfl⟩ := ofParameters_of_nodup hdistinct
  refine ⟨s, hs, fun _ _ => bind_eq_ok_iff_yields, fun _ => exists_bind_eq_ok_iff,
    fun _ _ => bind_eq_error_iff_yields, ?_, fun _ _ _ => bind_append_cons⟩
  intro g context declaration args hg
  subst hg
  constructor
  · intro values hvalues
    rw [Generator.run, hvalues]
    rfl
  · intro e he
    rw [Generator.run, he]
    rfl

def Host.placed : Host where
  Context := String
  Declaration := String
  Item := String
  Raw := Positioned String
  Value := String
  rawValue := { loc := Positioned.loc, string? := fun raw => some raw.value }

/-- The argument of the last parameter is written first and does not decode, nor does the first one
of the second parameter: the latter is rejected, at its place. The other arguments go unnoticed. -/
theorem Schema.crowded_bind_in_order :
    let param (name : String) : Parameter Host.placed.Raw Host.placed.Value :=
      ⟨name, "an x", fun raw => if raw.value = "x" then some raw.value else none, "-"⟩
    let ps := [param "a", param "b", param "c"]
    let arg (label value : String) (line : Nat) : Argument Host.placed.Raw :=
      ⟨some label, ⟨value, ⟨"f", line, 1⟩⟩⟩
    (ps.map Parameter.name).Nodup ∧
      ∃ s : Schema Host.placed.Raw Host.placed.Value, ofParameters ps = .ok s ∧
        s.bind [arg "c" "?" 1, arg "b" "?" 2, arg "b" "x" 3] =
          .error ⟨"b", ⟨"f", 2, 1⟩, "an x"⟩ ∧
        s.bind [arg "" "?" 1, arg "d" "?" 2, arg "b" "x" 3, arg "b" "?" 4] =
          .ok ["-", "x", "-"] := by
  intro param ps arg
  have hdistinct : (ps.map Parameter.name).Nodup := by decide
  obtain ⟨s, hs, hok, -, herror, -, hunused⟩ := bind_in_order hdistinct
  refine ⟨hdistinct, s, hs, ?_, ?_⟩
  · refine (herror _ _).2 ⟨param "b", ⟨[param "a"], [param "c"], rfl, ?_, ?_⟩, bindOne_eq_iff.1 rfl⟩
    · exact ⟨_, bindOne_eq_iff.1 rfl⟩
    · intro q hq hrejects
      obtain rfl := List.mem_singleton.1 hq
      obtain ⟨e, he⟩ := hrejects
      cases bindOne_of_yields he
  · calc s.bind [arg "" "?" 1, arg "d" "?" 2, arg "b" "x" 3, arg "b" "?" 4]
        = s.bind [arg "d" "?" 2, arg "b" "x" 3, arg "b" "?" 4] :=
          hunused [] _ _ (.inr (.inl rfl))
      _ = s.bind [arg "b" "x" 3, arg "b" "?" 4] :=
          hunused [] _ _ (.inr (.inr (.inl (by decide))))
      _ = s.bind [arg "b" "x" 3] :=
          hunused [arg "b" "x" 3] [] _
            (.inr (.inr (.inr ⟨_, List.mem_singleton_self _, rfl⟩)))
      _ = .ok ["-", "x", "-"] :=
          (hok _ _).2 (.cons (bindOne_eq_iff.1 rfl)
            (.cons (bindOne_eq_iff.1 rfl) (.cons (bindOne_eq_iff.1 rfl) .nil)))

end CodegenRegistry
