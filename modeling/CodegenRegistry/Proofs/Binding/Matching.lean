import CodegenRegistry.Binding
import CodegenRegistry.Proofs.Loops
import Mathlib.Data.List.Nodup
/-!
# Which arguments a schema looks at

Binding looks up one argument for each parameter. Arguments under other labels may come and go
without a trace. Where no label comes twice a parameter gets the argument of its name, wherever that
is written.
-/

namespace CodegenRegistry

variable {R V : Type}

namespace Argument

theorem label_of_label? {a : Argument R} {s : String} (h : a.label? = some s) : a.label = s := by
  rw [label, h]
  rfl

theorem find?_eq_some_iff_isFirst {args : List (Argument R)} {label : String}
    {arg : Argument R} :
    find? args label = some arg ↔ IsFirst (fun arg => arg.label? = some label) arg args := by
  simp [find?, IsFirst.find?_eq_some_iff]

theorem find?_filter {keep : Argument R → Bool} {label : String} {args : List (Argument R)}
    (h : ∀ arg : Argument R, arg.label? = some label → keep arg) :
    find? (args.filter keep) label = find? args label := by
  simp only [find?, List.find?_filter]
  congr 1
  funext arg
  by_cases harg : arg.label? = some label <;> simp [harg, h]

theorem find?_eq_some_iff_of_distinct {args : List (Argument R)} {label : String}
    {arg : Argument R} (hdistinct : (args.map Argument.label).Nodup) :
    find? args label = some arg ↔ arg ∈ args ∧ arg.label? = some label := by
  rw [find?_eq_some_iff_isFirst]
  constructor
  · intro h
    exact ⟨h.mem, h.holds⟩
  · intro h
    obtain ⟨hmem, hlabel⟩ := h
    have hexists : ∃ first, IsFirst (fun arg => arg.label? = some label) first args :=
      IsFirst.exists_of_mem hmem hlabel
    obtain ⟨first, hfirst⟩ := hexists
    have hsame : first.label = arg.label :=
      (label_of_label? hfirst.holds).trans (label_of_label? hlabel).symm
    obtain rfl : first = arg := List.inj_on_of_nodup_map hdistinct hfirst.mem hmem hsame
    exact hfirst

theorem find?_perm {args args' : List (Argument R)} (hperm : args.Perm args')
    (hdistinct : (args.map Argument.label).Nodup) (label : String) :
    find? args label = find? args' label := by
  have hdistinct' : (args'.map Argument.label).Nodup := (hperm.map _).nodup_iff.1 hdistinct
  apply Option.ext
  intro arg
  rw [find?_eq_some_iff_of_distinct hdistinct, find?_eq_some_iff_of_distinct hdistinct',
    hperm.mem_iff]

end Argument

/-- What comes of a parameter: its default if no argument has its name, and otherwise what the first
one that has it decodes to, or the rejection of that one. -/
inductive Parameter.Yields [RawValue R] (args : List (Argument R)) (p : Parameter R V) :
    Except Rejection V → Prop
  | omitted (hnone : ∀ arg ∈ args, arg.label? ≠ some p.name) : Yields args p (.ok p.default)
  | decoded {arg : Argument R} {v : V}
      (hfirst : IsFirst (fun arg => arg.label? = some p.name) arg args)
      (hdecode : p.decode arg.value = some v) : Yields args p (.ok v)
  | rejected {arg : Argument R}
      (hfirst : IsFirst (fun arg => arg.label? = some p.name) arg args)
      (hdecode : p.decode arg.value = none) :
      Yields args p (.error ⟨p.name, RawValue.loc arg.value, p.expected⟩)

structure Parameter.Receives (args : List (Argument R)) (p : Parameter R V) (v : V) : Prop where
  supplied : ∀ arg ∈ args, arg.label? = some p.name → p.decode arg.value = some v
  omitted : (∀ arg ∈ args, arg.label? ≠ some p.name) → v = p.default

namespace Schema

variable [RawValue R]

theorem bind_congr {s : Schema R V} {args args' : List (Argument R)}
    (h : ∀ name ∈ s.names, Argument.find? args name = Argument.find? args' name) :
    s.bind args = s.bind args' := by
  unfold bind
  apply mapM_congr
  intro p hp
  have hname : p.name ∈ s.names := List.mem_map_of_mem hp
  rw [bindOne, bindOne, h p.name hname]

theorem bind_filter {s : Schema R V} {keep : Argument R → Bool} {args : List (Argument R)}
    (h : ∀ arg : Argument R, arg.label ∈ s.names → keep arg) :
    s.bind (args.filter keep) = s.bind args := by
  apply bind_congr
  intro name hname
  apply Argument.find?_filter
  intro arg hlabel
  exact h arg (Argument.label_of_label? hlabel ▸ hname)

theorem bind_perm {s : Schema R V} {args args' : List (Argument R)} (hperm : args.Perm args')
    (hdistinct : (args.map Argument.label).Nodup) : s.bind args = s.bind args' := by
  apply bind_congr
  intro name _
  exact Argument.find?_perm hperm hdistinct name

theorem yields_bindOne (args : List (Argument R)) (p : Parameter R V) :
    p.Yields args (bindOne args p) := by
  rw [bindOne]
  cases hfind : Argument.find? args p.name with
  | none => exact .omitted (by simpa [Argument.find?] using hfind)
  | some arg =>
      have hfirst := Argument.find?_eq_some_iff_isFirst.1 hfind
      cases hdecode : p.decode arg.value with
      | none => simpa only [hdecode] using .rejected hfirst hdecode
      | some v => simpa only [hdecode] using .decoded hfirst hdecode

theorem bindOne_of_yields {args : List (Argument R)} {p : Parameter R V}
    {outcome : Except Rejection V} (h : p.Yields args outcome) : bindOne args p = outcome := by
  rw [bindOne]
  cases h with
  | omitted hnone =>
      have hfind : Argument.find? args p.name = none := by simpa [Argument.find?] using hnone
      rw [hfind]
  | decoded hfirst hdecode | rejected hfirst hdecode =>
      rw [Argument.find?_eq_some_iff_isFirst.2 hfirst]
      simp only [hdecode]

theorem bindOne_eq_iff {args : List (Argument R)} {p : Parameter R V}
    {outcome : Except Rejection V} : bindOne args p = outcome ↔ p.Yields args outcome :=
  ⟨fun h => h ▸ yields_bindOne args p, bindOne_of_yields⟩

theorem bindOne_eq_ok_iff {args : List (Argument R)} {p : Parameter R V} {v : V}
    (hdistinct : (args.map Argument.label).Nodup) :
    bindOne args p = .ok v ↔ p.Receives args v := by
  rw [bindOne_eq_iff]
  constructor
  · intro h
    cases h with
    | omitted hnone =>
        exact ⟨fun arg hmem hlabel => absurd hlabel (hnone arg hmem), fun _ => rfl⟩
    | @decoded first _ hfirst hdecode =>
        refine ⟨?_, fun homitted => absurd hfirst.holds (homitted first hfirst.mem)⟩
        intro arg hmem hlabel
        have hfind := Argument.find?_eq_some_iff_isFirst.2 hfirst
        rw [(Argument.find?_eq_some_iff_of_distinct hdistinct).2 ⟨hmem, hlabel⟩] at hfind
        obtain rfl := Option.some.inj hfind
        exact hdecode
  · intro h
    by_cases hsupplied : ∃ arg ∈ args, arg.label? = some p.name
    · obtain ⟨arg, hmem, hlabel⟩ := hsupplied
      have hexists : ∃ first, IsFirst (fun arg => arg.label? = some p.name) first args :=
        IsFirst.exists_of_mem hmem hlabel
      obtain ⟨first, hfirst⟩ := hexists
      exact .decoded hfirst (h.supplied first hfirst.mem hfirst.holds)
    · have hnone : ∀ arg ∈ args, arg.label? ≠ some p.name := by simpa using hsupplied
      rw [h.omitted hnone]
      exact .omitted hnone

theorem bind_eq_ok_iff {s : Schema R V} {args : List (Argument R)} {values : List V}
    (hdistinct : (args.map Argument.label).Nodup) :
    s.bind args = .ok values ↔ List.Forall₂ (Parameter.Receives args) s.params values := by
  rw [bind, mapM_eq_ok_iff]
  simp only [bindOne_eq_ok_iff hdistinct]

end Schema

end CodegenRegistry
