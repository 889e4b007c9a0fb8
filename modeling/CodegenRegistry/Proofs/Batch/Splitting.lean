import CodegenRegistry.Proofs.Batch.Faults
import CodegenRegistry.Proofs.Batch.Inlining
import Mathlib
/-!
# Batches in parts

A batch goes on from where its first part ends. A first part that fails therefore decides the
whole, and one that succeeds contributes the beginning of what the whole contributes. Two batches
that succeed on their own succeed together: the second one only sees more than it needs.
-/

namespace CodegenRegistry

namespace Registry

variable {H : Host} {r : Registry H} {a : Attachment H} {xs ys : List (Invocation H.Raw)}

/-- The invocation at fault is not past the first part. -/
theorem result_compose_append_of_error {e : Diagnostic}
    (h : (r.compose a xs).2.result = .error e) :
    (r.compose a (xs ++ ys)).2.result = .error e := by
  rw [result_compose, result_composeAll_eq_error_iff] at h ⊢
  obtain ⟨before, inv, after, rfl, hall, hfault⟩ := h
  exact ⟨before, inv, after ++ ys, by simp, hall, hfault⟩

/-- The part of a batch before the invocation at a position succeeds, and the part with it
fails. -/
structure RaisedAt (r : Registry H) (a : Attachment H) (invs : List (Invocation H.Raw)) (i : Nat)
    (e : Diagnostic) : Prop where
  lt_length : i < invs.length
  succeeds : ∃ c, (r.compose a (invs.take i)).2.result = .ok c
  fails : (r.compose a (invs.take (i + 1))).2.result = .error e

theorem RaisedAt.result_compose {i : Nat} {e : Diagnostic} (h : r.RaisedAt a xs i e) :
    (r.compose a xs).2.result = .error e := by
  have hfails : (r.compose a (xs.take (i + 1) ++ xs.drop (i + 1))).2.result = .error e :=
    result_compose_append_of_error h.fails
  rwa [List.take_append_drop] at hfails

theorem raisedAt_of_fault {before after : List (Invocation H.Raw)} {inv : Invocation H.Raw}
    {e : Diagnostic} (hall : r.AdmitsAll a.site [] before)
    (hfault : r.Fault a.site (r.appliedNames a.site before) inv e) :
    r.RaisedAt a (before ++ inv :: after) before.length e where
  lt_length := by simp
  succeeds := by
    rw [List.take_left]
    exact ⟨_, result_compose_eq_ok_iff.2 ⟨hall, rfl⟩⟩
  fails := by
    rw [List.append_cons, List.take_left' (by simp), result_compose,
      result_composeAll_eq_error_iff]
    exact ⟨before, inv, [], rfl, hall, hfault⟩

theorem result_compose_of_append {c : Composition H}
    (h : (r.compose a (xs ++ ys)).2.result = .ok c) :
    ∃ c₁, (r.compose a xs).2.result = .ok c₁ ∧ c₁.items <+: c.items ∧ c₁.tags <+: c.tags := by
  obtain ⟨hall, rfl⟩ := result_compose_eq_ok_iff.1 h
  have hxs : r.AdmitsAll a.site [] xs := (admitsAll_append_iff.1 hall).1
  refine ⟨_, result_compose_eq_ok_iff.2 ⟨hxs, rfl⟩, ?_, ?_⟩
  · rw [madeItems_append]
    exact List.prefix_append _ _
  · rw [appliedTags_append, eraseDups_append_eq]
    exact List.prefix_append _ _

theorem result_compose_join {c₁ c₂ : Composition H}
    (hxs : (r.compose a xs).2.result = .ok c₁) (hys : (r.compose a ys).2.result = .ok c₂) :
    (r.compose a (xs ++ ys)).2.result =
      .ok ⟨c₁.items ++ c₂.items, c₁.tags ++ c₂.tags.filter (· ∉ c₁.tags)⟩ := by
  obtain ⟨hall, rfl⟩ := result_compose_eq_ok_iff.1 hxs
  obtain ⟨hall', rfl⟩ := result_compose_eq_ok_iff.1 hys
  -- on their own the later invocations have seen nothing, here all that the earlier ones applied
  have hlater : r.AdmitsAll a.site ([] ++ r.appliedNames a.site xs) ys :=
    hall'.mono (List.nil_subset _)
  apply result_compose_eq_ok_iff.2
  refine ⟨admitsAll_append_iff.2 ⟨hall, hlater⟩, ?_⟩
  rw [madeItems_append, appliedTags_append, eraseDups_append_eq]

/-- A batch that fails fails in the same way whatever comes after it. If a batch succeeds, so does
every first part of it, with a first part of its items and tags. Batches that succeed can be put one
after the other: the items follow each other, and of the tags of the second those that the first
does not have follow its tags. -/
theorem compose_append (r : Registry H) (a : Attachment H) (xs ys : List (Invocation H.Raw)) :
    (∀ e, (r.compose a xs).2.result = .error e →
        (r.compose a (xs ++ ys)).2.result = .error e) ∧
      (∀ c, (r.compose a (xs ++ ys)).2.result = .ok c →
        ∃ c₁, (r.compose a xs).2.result = .ok c₁ ∧
          c₁.items <+: c.items ∧ c₁.tags <+: c.tags) ∧
      ∀ c₁ c₂, (r.compose a xs).2.result = .ok c₁ → (r.compose a ys).2.result = .ok c₂ →
        (r.compose a (xs ++ ys)).2.result =
          .ok ⟨c₁.items ++ c₂.items, c₁.tags ++ c₂.tags.filter (· ∉ c₁.tags)⟩ :=
  ⟨fun _ h => result_compose_append_of_error h, fun _ h => result_compose_of_append h,
    fun _ _ hxs hys => result_compose_join hxs hys⟩

end Registry

theorem Registry.paired_append :
    let a : Attachment Host.text := ⟨.structureType, "", ""⟩
    let first : List (Invocation Host.text.Raw) :=
      [⟨⟨"show", .nowhere⟩, [.labelled "x" "1"]⟩]
    let second : List (Invocation Host.text.Raw) := [⟨⟨"both", .nowhere⟩, []⟩]
    let misspelt : List (Invocation Host.text.Raw) := [⟨⟨"shwo", .nowhere⟩, []⟩]
    let e : Diagnostic := .unknownGenerator "shwo" .structureType .nowhere (some "show")
    (paired.compose a first).2.result = .ok ⟨["1"], ["echo"]⟩ ∧
      (paired.compose a second).2.result = .ok ⟨["-", "-"], ["echo"]⟩ ∧
      (paired.compose a (first ++ second)).2.result = .ok ⟨["1", "-", "-"], ["echo"]⟩ ∧
      (∃ c, (paired.compose a first).2.result = .ok c ∧
        c.items <+: ["1", "-", "-"] ∧ c.tags <+: ["echo"]) ∧
      (paired.compose a misspelt).2.result = .error e ∧
      (paired.compose a (misspelt ++ first)).2.result = .error e := by
  intro a first second misspelt e
  have hfirst : (paired.compose a first).2.result = .ok ⟨["1"], ["echo"]⟩ := by cbv
  have hsecond : (paired.compose a second).2.result = .ok ⟨["-", "-"], ["echo"]⟩ := by cbv
  have hmisspelt : (paired.compose a misspelt).2.result = .error e := by cbv
  obtain ⟨-, hpart, hjoin⟩ := compose_append paired a first second
  have hboth : (paired.compose a (first ++ second)).2.result =
      .ok ⟨["1", "-", "-"], ["echo"]⟩ := hjoin _ _ hfirst hsecond
  exact ⟨hfirst, hsecond, hboth, hpart _ hboth, hmisspelt,
    (compose_append paired a misspelt first).1 e hmisspelt⟩

end CodegenRegistry
