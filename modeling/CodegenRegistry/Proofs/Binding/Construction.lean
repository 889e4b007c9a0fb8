import CodegenRegistry.Proofs.Binding.Traversal
/-!
# Building schemas

A schema is built parameter by parameter, and its names, its parameters and the labels that its
generators accept are kept apart. Main statement: they stay in step. Both builders give up at the
first parameter whose name came up before, with the same text, and arguments under labels that a
generator does not accept are nothing to it.
-/

namespace CodegenRegistry

variable {R V : Type}

/-- Lists of arguments that differ only in arguments that have none of some labels. Such arguments
may have been inserted and deleted anywhere. -/
inductive Argument.AlikeUnder (labels : List String) :
    List (Argument R) → List (Argument R) → Prop
  | nil : AlikeUnder labels [] []
  | kept (arg : Argument R) {args args' : List (Argument R)} (h : AlikeUnder labels args args') :
      AlikeUnder labels (arg :: args) (arg :: args')
  | inserted {arg : Argument R} {args args' : List (Argument R)}
      (hother : ∀ label ∈ labels, arg.label? ≠ some label) (h : AlikeUnder labels args args') :
      AlikeUnder labels args (arg :: args')
  | deleted {arg : Argument R} {args args' : List (Argument R)}
      (hother : ∀ label ∈ labels, arg.label? ≠ some label) (h : AlikeUnder labels args args') :
      AlikeUnder labels (arg :: args) args'

theorem Argument.AlikeUnder.find?_eq {labels : List String} {args args' : List (Argument R)}
    (h : AlikeUnder labels args args') {label : String} (hlabel : label ∈ labels) :
    find? args label = find? args' label := by
  unfold find?
  induction h with
  | nil => rfl
  | kept arg _ ih => rw [List.find?_cons, List.find?_cons, ih]
  | inserted hother _ ih => rw [ih, List.find?_cons_of_neg (by simpa using hother label hlabel)]
  | deleted hother _ ih => rw [← ih, List.find?_cons_of_neg (by simpa using hother label hlabel)]

namespace Schema

/-- A builder has appended the parameters `before` and refuses `p`, which is next. -/
def StopsAt {ε : Type} (step : Schema R V → Parameter R V → Except ε (Schema R V))
    (before : List (Parameter R V)) (p : Parameter R V) (e : ε) : Prop :=
  ∃ s, before.foldlM step empty = .ok s ∧ step s p = .error e

structure IsFirstClash (before : List (Parameter R V)) (p : Parameter R V) : Prop where
  distinct : (before.map Parameter.name).Nodup
  taken : p.name ∈ before.map Parameter.name

/-! ## One parameter -/

theorem add_eq_ok_iff {s s' : Schema R V} {p : Parameter R V} :
    s.add p = .ok s' ↔ s'.params = s.params ++ [p] := by
  obtain ⟨params, distinct⟩ := s
  obtain ⟨params', distinct'⟩ := s'
  unfold add
  split
  · rename_i htaken
    -- no schema has these parameters, as two of them share a name
    constructor
    · intro h
      cases h
    · intro h
      subst h
      rw [List.map_append, List.nodup_append] at distinct'
      exact absurd rfl (distinct'.2.2 _ htaken p.name (by simp))
  · rw [Except.ok.injEq, mk.injEq, eq_comm]

theorem add_eq_error_iff {s : Schema R V} {p : Parameter R V} {e : Duplicate} :
    s.add p = .error e ↔ p.name ∈ s.names ∧ e = ⟨p.name⟩ := by
  unfold add
  split <;> simp_all [eq_comm]

theorem addOrAbort_eq (s : Schema R V) (p : Parameter R V) :
    s.addOrAbort p = (s.add p).mapError fun e => ⟨e.message⟩ := by
  unfold addOrAbort
  cases s.add p <;> rfl

/-! ## All parameters -/

theorem params_of_foldlM_add {s s' : Schema R V} {ps : List (Parameter R V)}
    (h : ps.foldlM add s = .ok s') : s'.params = s.params ++ ps := by
  induction ps generalizing s with
  | nil =>
      cases h
      exact (List.append_nil _).symm
  | cons p ps ih =>
      rw [List.foldlM_cons] at h
      cases hadd : s.add p with
      | error e =>
          rw [hadd] at h
          cases h
      | ok next =>
          rw [hadd] at h
          rw [ih h, add_eq_ok_iff.1 hadd, List.append_assoc, List.singleton_append]

theorem ofParameters_eq_ok_iff {ps : List (Parameter R V)} {s : Schema R V} :
    ofParameters ps = .ok s ↔ s.params = ps := by
  constructor
  · exact params_of_foldlM_add
  · intro h
    subst h
    obtain ⟨s', hs', hparams⟩ := ofParameters_of_nodup s.distinct
    obtain ⟨params, distinct⟩ := s
    obtain ⟨params', distinct'⟩ := s'
    subst hparams
    exact hs'

theorem exists_ofParameters_iff {ps : List (Parameter R V)} :
    (∃ s, ofParameters ps = .ok s) ↔ (ps.map Parameter.name).Nodup := by
  simp only [ofParameters_eq_ok_iff]
  constructor
  · intro h
    obtain ⟨s, rfl⟩ := h
    exact s.distinct
  · intro h
    exact ⟨⟨ps, h⟩, rfl⟩

theorem foldlM_eq_error_iff_stopsAt {ε : Type}
    {step : Schema R V → Parameter R V → Except ε (Schema R V)} {ps : List (Parameter R V)}
    {e : ε} :
    ps.foldlM step empty = .error e ↔
      ∃ before p after, ps = before ++ p :: after ∧ StopsAt step before p e := by
  rw [foldlM_eq_error_iff]
  constructor
  · intro h
    obtain ⟨before, p, after, s, hsplit, hbefore, hp⟩ := h
    exact ⟨before, p, after, hsplit, s, hbefore, hp⟩
  · intro h
    obtain ⟨before, p, after, hsplit, s, hbefore, hp⟩ := h
    exact ⟨before, p, after, s, hsplit, hbefore, hp⟩

theorem stopsAt_add_iff {before : List (Parameter R V)} {p : Parameter R V} {e : Duplicate} :
    StopsAt add before p e ↔ IsFirstClash before p ∧ e = ⟨p.name⟩ := by
  have hbuilt : ∀ s, before.foldlM add empty = .ok s ↔ s.params = before :=
    fun _ => ofParameters_eq_ok_iff
  unfold StopsAt
  simp only [hbuilt, add_eq_error_iff, names]
  constructor
  · intro h
    obtain ⟨s, rfl, htaken, rfl⟩ := h
    exact ⟨⟨s.distinct, htaken⟩, rfl⟩
  · intro h
    obtain ⟨⟨hdistinct, htaken⟩, rfl⟩ := h
    exact ⟨⟨before, hdistinct⟩, rfl, htaken, rfl⟩

theorem foldlM_addOrAbort (ps : List (Parameter R V)) (s : Schema R V) :
    ps.foldlM addOrAbort s = (ps.foldlM add s).mapError fun e => ⟨e.message⟩ := by
  rw [← foldlM_mapError]
  simp only [← addOrAbort_eq]

theorem stopsAt_addOrAbort_iff {before : List (Parameter R V)} {p : Parameter R V} {a : Abort} :
    StopsAt addOrAbort before p a ↔ ∃ e, StopsAt add before p e ∧ a.text = e.message := by
  unfold StopsAt
  simp only [foldlM_addOrAbort, addOrAbort_eq, mapError_eq_ok_iff, mapError_eq_error_iff]
  constructor
  · intro h
    obtain ⟨s, hbefore, e, hp, rfl⟩ := h
    exact ⟨e, ⟨s, hbefore, hp⟩, rfl⟩
  · intro h
    obtain ⟨e, ⟨s, hbefore, hp⟩, htext⟩ := h
    exact ⟨s, hbefore, e, hp, congrArg Abort.mk htext.symm⟩

end Schema

/-! ## What a generator accepts -/

namespace Generator

variable {H : Host}

theorem accepted_perm (g : Generator H) : g.accepted.Perm g.schema.names :=
  List.mergeSort_perm _ _

theorem nodup_accepted (g : Generator H) : g.accepted.Nodup :=
  g.accepted_perm.nodup_iff.2 g.schema.distinct

theorem length_accepted (g : Generator H) : g.accepted.length = g.schema.size := by
  rw [g.accepted_perm.length_eq, Schema.names, List.length_map, Schema.size]

theorem run_alikeUnder {g : Generator H} {args args' : List (Argument H.Raw)}
    (h : Argument.AlikeUnder g.accepted args args') (context : H.Context)
    (declaration : H.Declaration) :
    g.run context declaration args = g.run context declaration args' := by
  have hbind : g.schema.bind args = g.schema.bind args' := by
    apply Schema.bind_congr
    intro name hname
    exact h.find?_eq (mem_accepted.2 hname)
  unfold run
  rw [hbind]

end Generator

/-- Both builders make the schema that has the given parameters, if these have distinct names. Else
they stop at the first parameter whose name came up before, and both tell its name in the same
words. A generator with the schema accepts just the names, each of them once, and arguments that
have none of these labels may come and go. -/
theorem Schema.construction_agrees {H : Host} (ps : List (Parameter H.Raw H.Value)) :
    ((∃ s, ofParameters ps = .ok s) ↔ (ps.map Parameter.name).Nodup) ∧
      (∀ e, ofParameters ps = .error e ↔
        ∃ before p after, ps = before ++ p :: after ∧ StopsAt add before p e) ∧
      (∀ before p e, StopsAt add before (p : Parameter H.Raw H.Value) e ↔
        IsFirstClash before p ∧ e = ⟨p.name⟩) ∧
      (∀ s, ofParametersOrAbort ps = .ok s ↔ ofParameters ps = .ok s) ∧
      (∀ a, ofParametersOrAbort ps = .error a ↔
        ∃ before p after, ps = before ++ p :: after ∧ StopsAt addOrAbort before p a) ∧
      (∀ before p a, StopsAt addOrAbort before (p : Parameter H.Raw H.Value) a ↔
        ∃ e, StopsAt add before p e ∧ a.text = e.message) ∧
      ∀ s, ofParameters ps = .ok s →
        s.names = ps.map Parameter.name ∧ s.size = ps.length ∧
          ∀ g : Generator H, g.schema = s →
            (∀ label, label ∈ g.accepted ↔ label ∈ s.names) ∧ g.accepted.Nodup ∧
              g.accepted.length = s.size ∧
              ∀ args args', Argument.AlikeUnder g.accepted args args' →
                ∀ context declaration,
                  g.run context declaration args = g.run context declaration args' := by
  refine ⟨exists_ofParameters_iff, fun _ => foldlM_eq_error_iff_stopsAt,
    fun _ _ _ => stopsAt_add_iff, ?_, fun _ => foldlM_eq_error_iff_stopsAt,
    fun _ _ _ => stopsAt_addOrAbort_iff, ?_⟩
  · intro s
    unfold ofParametersOrAbort ofParameters
    rw [foldlM_addOrAbort, mapError_eq_ok_iff]
  · intro s hs
    obtain rfl := ofParameters_eq_ok_iff.1 hs
    refine ⟨rfl, rfl, ?_⟩
    intro g hg
    subst hg
    exact ⟨fun _ => Generator.mem_accepted, g.nodup_accepted, g.length_accepted,
      fun _ _ halike => Generator.run_alikeUnder halike⟩

/-- Of two names that come twice the one that comes again first is reported. -/
example :
    let param (name : String) : Parameter Host.text.Raw Host.text.Value := .string name ""
    Schema.ofParametersOrAbort [param "a", param "b", param "c", param "b", param "a"] =
      .error ⟨"duplicate parameter 'b' in schema"⟩ := by
  rfl

end CodegenRegistry
