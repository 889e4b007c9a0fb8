import CodegenRegistry.Proofs.Batch.Faults
import CodegenRegistry.Proofs.Batch.Inlining
/-!
# Following a hint for a label

An argument with a label that is not accepted may come with a hint. Main statement: an argument that
is given the label of its hint passes the label checks, unless the hint is the empty text. A schema
may have a parameter without a name, and no argument can be labelled for that one.
-/

namespace CodegenRegistry

/-- Diagnostics that find fault with a label: there is none, it came before, or it is `label` and is
not accepted. -/
inductive Diagnostic.BlamesLabel (label : String) : Diagnostic → Prop
  | positional (generator : String) (loc : Position) :
      BlamesLabel label (.positionalArgument generator loc)
  | duplicate (other : String) (loc : Position) : BlamesLabel label (.duplicateArgument other loc)
  | unaccepted (generator : String) (loc : Position) (suggestion : Option String) :
      BlamesLabel label (.unknownArgument generator label loc suggestion)

namespace Invocation

variable {R : Type}

def relabelArgument (old new : String) (arg : Argument R) : Argument R :=
  if arg.label? = some old then .labelled new arg.value else arg

def relabel (old new : String) (inv : Invocation R) : Invocation R :=
  { inv with args := inv.args.map (relabelArgument old new) }

def without (label : String) (inv : Invocation R) : Invocation R :=
  { inv with args := inv.args.filter fun arg => arg.label? ≠ some label }

variable {inv : Invocation R} {old new : String}

theorem WellLabelled.label?_eq (h : inv.WellLabelled) {arg : Argument R} (harg : arg ∈ inv.args) :
    arg.label? = some arg.label :=
  (h.labelled arg harg).label?_eq

theorem WellLabelled.without (h : inv.WellLabelled) (label : String) :
    (inv.without label).WellLabelled where
  labelled arg harg := h.labelled arg (List.mem_of_mem_filter harg)
  distinct := h.distinct.sublist (List.filter_sublist.map _)

theorem relabelArgument_of_ne {arg : Argument R} (h : arg.label? ≠ some old) :
    relabelArgument old new arg = arg :=
  if_neg h

theorem label_relabelArgument {arg : Argument R} (h : arg.label? = some old) :
    (relabelArgument old new arg).label = new := by
  rw [relabelArgument, if_pos h]
  by_cases hnew : new = ""
  · subst hnew
    rfl
  · exact Argument.label_of_label? (Argument.label?_labelled arg.value hnew)

theorem WellLabelled.labels_relabel (h : inv.WellLabelled) :
    (inv.relabel old new).args.map Argument.label =
      (inv.args.map Argument.label).map fun label => if label = old then new else label := by
  unfold Invocation.relabel
  rw [List.map_map, List.map_map]
  apply List.map_congr_left
  intro arg harg
  have hlabel := h.label?_eq harg
  simp only [Function.comp_apply]
  split
  · rename_i hold
    exact label_relabelArgument (hlabel.trans (congrArg some hold))
  · rename_i hold
    rw [relabelArgument_of_ne fun heq => hold (Option.some.inj (hlabel.symm.trans heq))]

theorem WellLabelled.relabel (h : inv.WellLabelled) (hnew : new ≠ "")
    (hother : ∀ arg ∈ inv.args, arg.label? ≠ some old → arg.label? ≠ some new) :
    (inv.relabel old new).WellLabelled where
  labelled := by
    intro arg' harg'
    obtain ⟨arg, harg, rfl⟩ := List.mem_map.1 harg'
    unfold relabelArgument
    split
    · exact ⟨new, rfl, hnew⟩
    · exact h.labelled arg harg
  distinct := by
    have hfresh : ∀ label ∈ inv.args.map Argument.label, label ≠ old → label ≠ new := by
      intro label hmem
      obtain ⟨arg, harg, rfl⟩ := List.mem_map.1 hmem
      simpa [h.label?_eq harg] using hother arg harg
    rw [h.labels_relabel]
    apply List.Nodup.map_on _ h.distinct
    intro label hlabel label' hlabel' heq
    have hne := hfresh label hlabel
    have hne' := hfresh label' hlabel'
    split at heq <;> split at heq <;> simp_all

variable [RawValue R]

theorem checkAccepted_relabel {cutoff : Cutoff} {accepted : List String} (hnew : new ∈ accepted) :
    (inv.relabel old new).checkAccepted cutoff accepted =
      (inv.without old).checkAccepted cutoff accepted := by
  have hfind : ((inv.args.map (relabelArgument old new)).find? fun arg => arg.label ∉ accepted) =
      (inv.args.filter fun arg => arg.label? ≠ some old).find? fun arg => arg.label ∉ accepted := by
    induction inv.args with
    | nil => rfl
    | cons arg args ih =>
        rw [List.map_cons]
        by_cases hold : arg.label? = some old
        · have haccepted : (relabelArgument old new arg).label ∈ accepted := by
            rwa [label_relabelArgument hold]
          rw [List.find?_cons_of_neg (by simpa using haccepted),
            List.filter_cons_of_neg (by simpa using hold), ih]
        · rw [relabelArgument_of_ne hold, List.filter_cons_of_pos (by simpa using hold),
            List.find?_cons, List.find?_cons, ih]
  unfold checkAccepted relabel without
  rw [hfind]

theorem checkLabels_relabel_empty (h : inv.WellLabelled) {arg : Argument R}
    (harg : arg ∈ inv.args) :
    (inv.relabel arg.label "").checkLabels =
      .error (.positionalArgument inv.name.value (RawValue.loc arg.value)) := by
  have hlabel := h.label?_eq harg
  obtain ⟨before, after, hsplit⟩ := List.append_of_mem harg
  have hbefore : ∀ other ∈ before, other.label? ≠ some arg.label := by
    intro other hother heq
    have hdistinct := h.distinct
    rw [hsplit, List.map_append, List.nodup_append] at hdistinct
    exact hdistinct.2.2 _ (List.mem_map_of_mem hother) _ (by simp) (Argument.label_of_label? heq)
  refine checkLabels_eq_error_iff.2 (.inl ⟨.labelled "" arg.value, ?_, rfl⟩)
  refine ⟨before, after.map (relabelArgument arg.label ""), ?_, ?_, ?_⟩
  · have hkept : before.map (relabelArgument arg.label "") = before := by
      rw [List.map_congr_left fun other hother => relabelArgument_of_ne (hbefore other hother),
        List.map_id']
    unfold relabel
    rw [hsplit, List.map_append, List.map_cons, hkept, relabelArgument, if_pos hlabel]
  · intro hlabelled
    obtain ⟨label, hwritten, hne⟩ := hlabelled
    exact hne (Option.some.inj hwritten).symm
  · intro other hother
    rw [Classical.not_not]
    exact h.labelled other (by simp [hsplit, hother])

end Invocation

namespace Registry

variable {H : Host} {r : Registry H} {site : Site} {seen : List String} {inv inv' : Invocation H.Raw}

/-- A check reads the labels of the arguments, and that in two places only. -/
theorem check_congr (hname : inv.name = inv'.name) (hlabels : inv.checkLabels = inv'.checkLabels)
    (haccepted : ∀ found, Expansion.expand r.catalog site inv.name.value = .ok found →
      inv.checkAccepted r.settings.cutoff (found.flatMap fun g => g.generator.accepted) =
        inv'.checkAccepted r.settings.cutoff (found.flatMap fun g => g.generator.accepted)) :
    r.check site seen inv = r.check site seen inv' := by
  unfold check
  rw [← hname, hlabels]
  apply Logged.bind_congr_of_ok
  intro _ _
  apply Logged.bind_congr_of_ok
  intro found hfound
  simp only [haccepted found (result_resolve_eq_ok_iff.1 hfound)]

theorem unaccepted_of_check {generator label : String} {loc : Position} {hint : Option String}
    (h : (r.check site seen inv).result = .error (.unknownArgument generator label loc hint)) :
    ∃ arg ∈ inv.args, ∃ accepted, inv.WellLabelled ∧ generator = inv.name.value ∧
      label = arg.label ∧ loc = RawValue.loc arg.value ∧
      (∀ other, other ∈ accepted ↔ r.Accepts site inv.name.value other) ∧
      hint = Spelling.suggest r.settings.cutoff label accepted := by
  cases fault_of_check h with
  | unresolved _ hunresolved => cases hunresolved
  | unaccepted hlabels _ hfirst haccepted =>
      exact ⟨_, hfirst.mem, _, hlabels, rfl, rfl, rfl, haccepted, rfl⟩
  | unmet _ _ _ _ hunmet =>
      cases hunmet with
      | unresolved hunresolved => cases hunresolved

theorem Unresolved.not_blamesLabel {loc : Position} {name label : String} {e : Diagnostic}
    (h : r.Unresolved site loc name e) : ¬ e.BlamesLabel label := by
  intro hblames
  cases h <;> cases hblames

theorem Unmet.not_blamesLabel {loc : Position} {requiredBy dependency label : String}
    {e : Diagnostic} (h : r.Unmet site seen loc requiredBy dependency e) :
    ¬ e.BlamesLabel label := by
  intro hblames
  cases h with
  | unresolved hunresolved => exact hunresolved.not_blamesLabel hblames
  | missing => cases hblames

theorem Fault.not_blamesLabel {label : String} {e : Diagnostic} (h : r.Fault site seen inv e)
    (hlabels : inv.WellLabelled) (haccepts : r.Accepts site inv.name.value label) :
    ¬ e.BlamesLabel label := by
  intro hblames
  cases h with
  | positional hfirst => exact hfirst.holds (hlabels.labelled _ hfirst.mem)
  | duplicate _ hfirst =>
      exact Invocation.exists_firstRepeat_iff.1 ⟨_, hfirst⟩ hlabels.distinct
  | unresolved _ hunresolved => exact hunresolved.not_blamesLabel hblames
  | unaccepted _ _ hfirst _ =>
      cases hblames
      exact hfirst.holds haccepts
  | unmet _ _ _ _ hunmet => exact hunmet.not_blamesLabel hblames
  | rejected => cases hblames

/-- Relabelling an argument to an accepted label checks the invocation without that argument. -/
theorem check_relabel {old new : String} (hlabels : inv.WellLabelled) (hnew : new ≠ "")
    (hother : ∀ arg ∈ inv.args, arg.label? ≠ some old → arg.label? ≠ some new)
    (haccepts : r.Accepts site inv.name.value new) :
    r.check site seen (inv.relabel old new) = r.check site seen (inv.without old) := by
  have hwithout := Invocation.checkLabels_eq_ok_iff.2 (hlabels.without old)
  have hrelabel := Invocation.checkLabels_eq_ok_iff.2 (hlabels.relabel hnew hother)
  refine check_congr rfl ?_ ?_
  · rw [hwithout, hrelabel]
  intro found hfound
  exact Invocation.checkAccepted_relabel ((mem_accepted_iff_accepts hfound).2 haccepts)

/-- The empty text is within the limit of a fixed cutoff only: a limit by length is always less than
the length. -/
theorem cutoff_of_empty_hint {cutoff : Cutoff} {word : String} {candidates : List String}
    (h : Spelling.suggest cutoff word candidates = some "") :
    ∃ bound, cutoff = .fixed bound ∧ word.length ≤ bound := by
  have heligible := (Spelling.suggest_eq_some_iff.1 h).1
  have hwithin : word.length ≤ cutoff.limit word.length := by
    simpa [Spelling.distance_eq, String.length_toList] using heligible.within
  cases cutoff with
  | fixed bound => exact ⟨bound, rfl, hwithin⟩
  | byLength =>
      have hpositive : word.length ≠ 0 := by
        simpa using heligible.ne_word.symm
      simp only [Cutoff.limit] at hwithin
      split_ifs at hwithin <;> omega

/-- What comes of an argument that is given the label of its hint. With a label that is not empty it
passes the label checks, and from there on it is as if it had been left out. The empty text is a
hint under a fixed cutoff if a generator has a parameter without a name, and then the argument is
refused as having no label. -/
theorem check_relabelled {generator label hint : String} {loc : Position}
    (h : (r.check site seen inv).result =
      .error (.unknownArgument generator label loc (some hint)))
    (hother : ∀ arg ∈ inv.args, arg.label? ≠ some label → arg.label? ≠ some hint) :
    (hint ≠ "" →
      r.check site seen (inv.relabel label hint) = r.check site seen (inv.without label) ∧
        ∀ e, (r.check site seen (inv.relabel label hint)).result = .error e →
          ¬ e.BlamesLabel hint) ∧
    (hint = "" →
      (r.check site seen (inv.relabel label hint)).result =
          .error (.positionalArgument generator loc) ∧
        r.Accepts site generator "" ∧
        ∃ bound, r.settings.cutoff = .fixed bound ∧ label.length ≤ bound) := by
  obtain ⟨arg, harg, accepted, hlabels, rfl, rfl, rfl, haccepted, hhint⟩ := unaccepted_of_check h
  have haccepts : r.Accepts site inv.name.value hint :=
    (haccepted hint).1 (Spelling.suggest_eq_some_iff.1 hhint.symm).1.candidate
  constructor
  · intro hnew
    refine ⟨check_relabel hlabels hnew hother haccepts, ?_⟩
    intro e he
    exact (fault_of_check he).not_blamesLabel (hlabels.relabel hnew hother) haccepts
  · rintro rfl
    refine ⟨?_, haccepts, cutoff_of_empty_hint hhint.symm⟩
    apply result_check_eq_error_iff.2
    exact .inl (Invocation.checkLabels_relabel_empty hlabels harg)

end Registry

def Registry.echoing (cutoff : Cutoff) (label : String) : Registry Host.text where
  settings := { cutoff }
  catalog := NameTable.empty.insert "show" (.ofBundle ⟨fun _ => some (.echoing label), none⟩)

theorem Registry.echoing_check_relabelled :
    let r := echoing .byLength "width"
    let inv : Invocation Host.text.Raw :=
      ⟨⟨"show", .nowhere⟩, [.labelled "widht" "3"]⟩
    (r.check .structureType [] inv).result =
        .error (.unknownArgument "show" "widht" .nowhere (some "width")) ∧
      (∀ arg ∈ inv.args, arg.label? ≠ some "widht" → arg.label? ≠ some "width") ∧
      ∀ e, (r.check .structureType [] (inv.relabel "widht" "width")).result = .error e →
        ¬ e.BlamesLabel "width" := by
  intro r inv
  have h : (r.check .structureType [] inv).result =
      .error (.unknownArgument "show" "widht" .nowhere (some "width")) := by cbv
  have hother : ∀ arg ∈ inv.args, arg.label? ≠ some "widht" → arg.label? ≠ some "width" :=
    List.forall_mem_singleton.2 fun hne => absurd rfl hne
  exact ⟨h, hother, ((check_relabelled h hother).1 (by decide)).2⟩

/-- A hint that does not help: no argument has an empty label. -/
theorem Registry.echoing_hints_at_nothing :
    let r := echoing (.fixed 1) ""
    let inv : Invocation Host.text.Raw := ⟨⟨"show", .nowhere⟩, [.labelled "a" "3"]⟩
    (r.check .structureType [] inv).result =
        .error (.unknownArgument "show" "a" .nowhere (some "")) ∧
      (∀ arg ∈ inv.args, arg.label? ≠ some "a" → arg.label? ≠ some "") ∧
      (r.check .structureType [] (inv.relabel "a" "")).result =
        .error (.positionalArgument "show" .nowhere) := by
  intro r inv
  exact ⟨by cbv, List.forall_mem_singleton.2 fun hne => absurd rfl hne, by cbv⟩

end CodegenRegistry
