import CodegenRegistry.Proofs.Batch.Inlining
import Mathlib
/-!
# What becomes of the arguments

The label check of an invocation looks at all of its generators at once, and binding at one of them
alone. Main statement: between the two no argument of a batch that succeeds gets lost.
-/

namespace CodegenRegistry

namespace Registry

variable {H : Host} {r : Registry H} {a : Attachment H}

/-- Every argument of an invocation is a parameter of some of its generators. Each generator makes
its items from what its parameters receive, in the order of its schema. -/
structure UsesArguments (r : Registry H) (a : Attachment H) (inv : Invocation H.Raw) : Prop where
  resolves : (r.resolve a.site inv.name).result = .ok (r.generators a.site inv.name.value)
  declared : ∀ arg ∈ inv.args, ∃ g ∈ r.generators a.site inv.name.value,
    ∃ p ∈ g.generator.schema.params, arg.label? = some p.name
  handed : ∀ g ∈ r.generators a.site inv.name.value, ∃ values,
    List.Forall₂ (Parameter.Receives inv.args) g.generator.schema.params values ∧
      g.made a inv.args = g.generator.produce a.context a.declaration values

theorem Admits.usesArguments {seen : List String} {inv : Invocation H.Raw}
    (h : r.Admits a.site seen inv) : r.UsesArguments a inv where
  resolves := result_resolve_eq_ok_iff.2 (expand_generators h.resolves)
  declared := by
    intro arg harg
    obtain ⟨g, hg, haccepted⟩ := h.accepted arg harg
    obtain ⟨p, hp, hname⟩ := List.mem_map.1 (Generator.mem_accepted.1 haccepted)
    exact ⟨g, hg, p, hp, by rw [hname, (h.labels.labelled arg harg).label?_eq]⟩
  handed := by
    intro g hg
    obtain ⟨values, hvalues⟩ := h.binds g hg
    exact ⟨values, (Schema.bind_eq_ok_iff h.labels.distinct).1 hvalues,
      Resolved.made_of_bind a hvalues⟩

/-- In a batch that succeeds no argument is dropped. Each is declared by a generator of its
invocation, and every generator that declares it decodes it and gets the value at the place of the
parameter. Defaults stand only for parameters without an argument. -/
theorem compose_uses_arguments {invs : List (Invocation H.Raw)} {c : Composition H}
    (h : (r.compose a invs).2.result = .ok c) :
    c.items = r.madeItems a invs ∧ ∀ inv ∈ invs, r.UsesArguments a inv := by
  obtain ⟨hall, rfl⟩ := result_compose_eq_ok_iff.1 h
  refine ⟨rfl, ?_⟩
  intro inv hinv
  obtain ⟨seen, hadmits⟩ := hall.admits hinv
  exact hadmits.usesArguments

end Registry

theorem Registry.paired_uses_arguments :
    let a : Attachment Host.text := ⟨.structureType, "", ""⟩
    let inv : Invocation Host.text.Raw :=
      ⟨⟨"both", .nowhere⟩, [.labelled "y" "2", .labelled "x" "1"]⟩
    (paired.compose a [inv]).2.result = .ok ⟨["1", "2"], ["echo"]⟩ ∧
      ["1", "2"] = paired.madeItems a [inv] ∧ paired.UsesArguments a inv := by
  intro a inv
  have hresult : (paired.compose a [inv]).2.result = .ok ⟨["1", "2"], ["echo"]⟩ := by cbv
  obtain ⟨hitems, huses⟩ := compose_uses_arguments hresult
  exact ⟨hresult, hitems, huses inv (List.mem_singleton.2 rfl)⟩

end CodegenRegistry
