import CodegenRegistry.Proofs.Batch.Inlining
import CodegenRegistry.Proofs.Batch.Splitting
import Mathlib
/-!
# The order of arguments

A label comes once in every invocation that gets as far as binding, so the order of its arguments
makes no difference to what they are bound to. Only a check that finds fault with the labels reports
the first of the arguments that are to blame. Main statement: a batch with rearranged arguments ends
like the original one, but for the choice of that argument.
-/

namespace CodegenRegistry

/-- The second diagnostic is the first one, or finds the same fault with another argument. -/
inductive Diagnostic.SameButForArgument : Diagnostic → Diagnostic → Prop
  | same (e : Diagnostic) : SameButForArgument e e
  | positional (generator : String) (loc loc' : Position) :
      SameButForArgument (.positionalArgument generator loc) (.positionalArgument generator loc')
  | duplicate (label label' : String) (loc loc' : Position) :
      SameButForArgument (.duplicateArgument label loc) (.duplicateArgument label' loc')
  | unaccepted (generator label label' : String) (loc loc' : Position)
      (hint hint' : Option String) :
      SameButForArgument (.unknownArgument generator label loc hint)
        (.unknownArgument generator label' loc' hint')

namespace Invocation

variable {R : Type} {inv inv' : Invocation R}

structure Rearranged (inv inv' : Invocation R) : Prop where
  name : inv.name = inv'.name
  args : inv.args.Perm inv'.args

theorem Rearranged.symm (h : inv.Rearranged inv') : inv'.Rearranged inv :=
  ⟨h.name.symm, h.args.symm⟩

theorem WellLabelled.rearranged (hlabels : inv.WellLabelled) (h : inv.Rearranged inv') :
    inv'.WellLabelled where
  labelled arg harg := hlabels.labelled arg (h.args.mem_iff.2 harg)
  distinct := (h.args.map _).nodup_iff.1 hlabels.distinct

end Invocation

theorem Parameter.rejectsAt_perm {R V : Type} {p : Parameter R V} {args args' : List (Argument R)}
    {arg : Argument R} (hperm : args.Perm args')
    (hdistinct : (args.map Argument.label).Nodup) :
    p.RejectsAt args arg ↔ p.RejectsAt args' arg := by
  simp only [RejectsAt, ← Argument.find?_eq_some_iff_isFirst]
  rw [Argument.find?_perm hperm hdistinct]

namespace Registry

variable {H : Host} {r : Registry H} {a : Attachment H} {site : Site} {seen : List String}
  {inv inv' : Invocation H.Raw} {invs invs' : List (Invocation H.Raw)}

/-! ## Batches that succeed -/

theorem Admits.rearranged (hadmits : r.Admits site seen inv) (h : inv.Rearranged inv') :
    r.Admits site seen inv' where
  labels := hadmits.labels.rearranged h
  resolves := h.name ▸ hadmits.resolves
  accepted arg harg := h.name ▸ hadmits.accepted arg (h.args.mem_iff.2 harg)
  met := h.name ▸ hadmits.met
  binds := by
    intro g hg
    rw [← h.name] at hg
    rw [← Schema.bind_perm h.args hadmits.labels.distinct]
    exact hadmits.binds g hg

theorem sameContribution_of_rearranged (h : inv.Rearranged inv') (hlabels : inv.WellLabelled) :
    r.SameContribution a inv [inv'] where
  names := by simp [appliedNames, h.name]
  items := by
    have hmade : Resolved.made a inv'.args = Resolved.made a inv.args := by
      funext g
      rw [Resolved.made, Generator.run, ← Schema.bind_perm h.args hlabels.distinct]
      rfl
    simp [madeItems, h.name, hmade]
  tags := by simp [appliedTags, h.name]

theorem result_compose_of_rearranged (xs : List (Invocation H.Raw)) {c : Composition H}
    (h : List.Forall₂ Invocation.Rearranged invs invs')
    (hresult : (r.compose a (xs ++ invs)).2.result = .ok c) :
    (r.compose a (xs ++ invs')).2.result = .ok c := by
  induction h generalizing xs with
  | nil => exact hresult
  | @cons inv inv' invs invs' hinv _ ih =>
      have hmem : inv ∈ xs ++ inv :: invs := by simp
      obtain ⟨seen, hadmits⟩ := (result_compose_eq_ok_iff.1 hresult).1.admits hmem
      have hsame : r.SameContribution a inv [inv'] :=
        sameContribution_of_rearranged hinv hadmits.labels
      have hreplaced : (r.compose a (xs ++ [inv'] ++ invs)).2.result = .ok c := by
        apply result_compose_replace hsame _ hresult
        intro seen hadmits
        exact admitsAll_cons_iff.2 ⟨hadmits.rearranged hinv, admitsAll_nil _ _ _⟩
      rw [List.append_cons]
      exact ih _ hreplaced

theorem appliedNames_of_rearranged (h : List.Forall₂ Invocation.Rearranged invs invs') :
    r.appliedNames site invs' = r.appliedNames site invs := by
  induction h with
  | nil => rfl
  | cons hinv _ ih => simpa [appliedNames, hinv.name] using ih

theorem AdmitsAll.rearranged (hall : r.AdmitsAll a.site [] invs)
    (h : List.Forall₂ Invocation.Rearranged invs invs') : r.AdmitsAll a.site [] invs' := by
  have hresult : (r.compose a ([] ++ invs)).2.result = .ok _ :=
    result_compose_eq_ok_iff.2 ⟨hall, rfl⟩
  exact (result_compose_eq_ok_iff.1 (result_compose_of_rearranged [] h hresult)).1

/-! ## Batches that fail -/

/-- The faults of the labels are there in any order, though another argument may be the first one
with it. The other faults do not look at the order. -/
theorem Fault.rearranged {e : Diagnostic} (hfault : r.Fault site seen inv e)
    (h : inv.Rearranged inv') :
    ∃ e', r.Fault site seen inv' e' ∧ e.SameButForArgument e' := by
  obtain ⟨name, args⟩ := inv
  obtain ⟨name', args'⟩ := inv'
  obtain ⟨rfl, hperm⟩ : name = name' ∧ args.Perm args' := ⟨h.name, h.args⟩
  have hforall : ∀ {P : Argument H.Raw → Prop}, (∀ arg ∈ args, P arg) → ∀ arg ∈ args', P arg :=
    fun hall arg harg => hall arg (hperm.mem_iff.2 harg)
  cases hfault with
  | positional hfirst =>
      obtain ⟨arg', hfirst'⟩ := hfirst.exists_of_perm hperm
      exact ⟨_, .positional hfirst', .positional _ _ _⟩
  | duplicate hlabelled hfirst =>
      have hrepeated : ¬ (args'.map Argument.label).Nodup := by
        rw [← (hperm.map _).nodup_iff]
        exact Invocation.exists_firstRepeat_iff.1 ⟨_, hfirst⟩
      obtain ⟨arg', hfirst'⟩ := Invocation.exists_firstRepeat_iff.2 hrepeated
      exact ⟨_, .duplicate (hforall hlabelled) hfirst', .duplicate _ _ _ _⟩
  | unresolved hlabels hunresolved =>
      exact ⟨e, .unresolved (hlabels.rearranged h) hunresolved, .same e⟩
  | unaccepted hlabels hfound hfirst haccepted =>
      obtain ⟨arg', hfirst'⟩ := hfirst.exists_of_perm hperm
      exact ⟨_, .unaccepted (hlabels.rearranged h) hfound hfirst' haccepted,
        .unaccepted _ _ _ _ _ _ _⟩
  | unmet hlabels hfound haccepts hfirst hunmet =>
      exact ⟨e, .unmet (hlabels.rearranged h) hfound (hforall haccepts) hfirst hunmet, .same e⟩
  | rejected hlabels hfound haccepts hmet hgenerator hparameter harg =>
      have hrejectsAt : ∀ (p : Parameter H.Raw H.Value) arg,
          p.RejectsAt args arg ↔ p.RejectsAt args' arg := fun p arg =>
        Parameter.rejectsAt_perm hperm hlabels.distinct
      simp only [Parameter.Rejects, hrejectsAt] at hgenerator hparameter harg
      exact ⟨_, .rejected (hlabels.rearranged h) hfound (hforall haccepts) hmet hgenerator
        hparameter harg, .same _⟩

private theorem exists_split {α β : Type} {R : α → β → Prop} {before after : List α} {x : α}
    {l : List β} (h : List.Forall₂ R (before ++ x :: after) l) :
    ∃ before' x' after', l = before' ++ x' :: after' ∧ List.Forall₂ R before before' ∧
      R x x' := by
  induction before generalizing l with
  | nil =>
      obtain ⟨x', after', hx, -, rfl⟩ := List.forall₂_cons_left_iff.1 h
      exact ⟨[], x', after', rfl, .nil, hx⟩
  | cons y before ih =>
      obtain ⟨y', rest, hy, hrest, rfl⟩ := List.forall₂_cons_left_iff.1 h
      obtain ⟨before', x', after', rfl, hbefore, hx⟩ := ih hrest
      exact ⟨y' :: before', x', after', rfl, .cons hy hbefore, hx⟩

/-- With the arguments of each invocation in another order a batch succeeds with the same
composition or fails at the same invocation. It then fails with the same diagnostic; only where
labels are at fault another argument may be named. -/
theorem compose_rearranged (r : Registry H) (a : Attachment H)
    (h : List.Forall₂ Invocation.Rearranged invs invs') :
    (∀ c, (r.compose a invs').2.result = .ok c ↔ (r.compose a invs).2.result = .ok c) ∧
      ∀ e, (r.compose a invs).2.result = .error e →
        ∃ e' i, (r.compose a invs').2.result = .error e' ∧ e.SameButForArgument e' ∧
          r.RaisedAt a invs i e ∧ r.RaisedAt a invs' i e' := by
  have hback : List.Forall₂ Invocation.Rearranged invs' invs :=
    (h.imp fun _ _ hinv => hinv.symm).flip
  constructor
  · intro c
    constructor
    · intro hresult
      exact result_compose_of_rearranged [] hback hresult
    · intro hresult
      exact result_compose_of_rearranged [] h hresult
  · intro e hresult
    rw [result_compose, result_composeAll_eq_error_iff] at hresult
    obtain ⟨before, inv, after, rfl, hall, hfault⟩ := hresult
    obtain ⟨before', inv', after', rfl, hbefore, hinv⟩ := exists_split h
    obtain ⟨e', hfault', hsame⟩ := hfault.rearranged hinv
    rw [← appliedNames_of_rearranged hbefore] at hfault'
    have hraised : r.RaisedAt a (before ++ inv :: after) before.length e :=
      raisedAt_of_fault hall hfault
    have hraised' : r.RaisedAt a (before' ++ inv' :: after') before.length e' := by
      rw [hbefore.length_eq]
      exact raisedAt_of_fault (hall.rearranged hbefore) hfault'
    exact ⟨e', before.length, hraised'.result_compose, hsame, hraised, hraised'⟩

end Registry

theorem Registry.paired_rearranged :
    let a : Attachment Host.text := ⟨.structureType, "", ""⟩
    let both (args : List (Argument Host.text.Raw)) : Invocation Host.text.Raw :=
      ⟨⟨"both", .nowhere⟩, args⟩
    let x : Argument Host.text.Raw := .labelled "x" "1"
    let y : Argument Host.text.Raw := .labelled "y" "2"
    let z : Argument Host.text.Raw := .labelled "z" "3"
    let w : Argument Host.text.Raw := .labelled "w" "4"
    let e : Diagnostic := .unknownArgument "both" "z" .nowhere none
    List.Forall₂ Invocation.Rearranged [both [y, x]] [both [x, y]] ∧
      (paired.compose a [both [x, y]]).2.result = .ok ⟨["1", "2"], ["echo"]⟩ ∧
      List.Forall₂ Invocation.Rearranged [both [], both [z, w]] [both [], both [w, z]] ∧
      (paired.compose a [both [], both [z, w]]).2.result = .error e ∧
      ∃ e' i, (paired.compose a [both [], both [w, z]]).2.result = .error e' ∧
        e.SameButForArgument e' ∧ paired.RaisedAt a [both [], both [z, w]] i e ∧
          paired.RaisedAt a [both [], both [w, z]] i e' := by
  intro a both x y z w e
  have haccepted : List.Forall₂ Invocation.Rearranged [both [y, x]] [both [x, y]] :=
    .cons ⟨rfl, .swap x y []⟩ .nil
  have hresult : (paired.compose a [both [y, x]]).2.result = .ok ⟨["1", "2"], ["echo"]⟩ := by
    cbv
  have hrefused : List.Forall₂ Invocation.Rearranged
      [both [], both [z, w]] [both [], both [w, z]] :=
    .cons ⟨rfl, .refl []⟩ (.cons ⟨rfl, .swap w z []⟩ .nil)
  have hfails : (paired.compose a [both [], both [z, w]]).2.result = .error e := by cbv
  exact ⟨haccepted, ((compose_rearranged paired a haccepted).1 _).2 hresult, hrefused, hfails,
    (compose_rearranged paired a hrefused).2 e hfails⟩

end CodegenRegistry
