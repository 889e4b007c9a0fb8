import CodegenRegistry.Toml.Value
/-!
# TOML statements

A document is a sequence of headers and assignments, each on lines of its own. Headers of arrays
of tables are refused, for no setting is such an array.
-/

namespace CodegenRegistry.Toml

inductive Statement
  | header (path : List String)
  | assign (path : List String) (item : Item)

namespace Statement

def first? (ts : List Token) : Option (Statement × List Token) :=
  match ts with
  | .openBracket :: ts =>
    (Key.path? ts).bind fun
      | (path, .closeBracket :: rest) => some (header path, rest)
      | _ => none
  | ts =>
    (Key.path? ts).bind fun
      | (path, .equals :: rest) => (Item.read? rest).map fun (item, rest) => (assign path item, rest)
      | _ => none

theorem length_first? {ts rest : List Token} {s : Statement}
    (h : first? ts = some (s, rest)) : rest.length < ts.length := by
  rw [first?.eq_def] at h
  split at h
  · obtain ⟨⟨path, r⟩, hp, h⟩ := Option.bind_eq_some_iff.1 h
    have := Key.length_path? hp
    split at h <;> simp_all
    omega
  · obtain ⟨⟨path, r⟩, hp, h⟩ := Option.bind_eq_some_iff.1 h
    have := Key.length_path? hp
    split at h
    · obtain ⟨⟨item, r'⟩, hv, h⟩ := Option.map_eq_some_iff.1 h
      have := Item.length_read? hv
      simp_all
      omega
    · simp at h

/-- The statements of a document. Each ends with its line or with the document. -/
def all? (ts : List Token) : Option (List Statement) :=
  match ts with
  | [] => some []
  | .newline :: rest => all? rest
  | t :: ts =>
    match _ : first? (t :: ts) with
    | some (s, []) => some [s]
    | some (s, .newline :: rest) => (all? rest).map (s :: ·)
    | _ => none
termination_by ts.length
decreasing_by
  · simp
  · rename_i h
    have := length_first? h
    simp only [List.length_cons] at this ⊢
    omega

end Statement

end CodegenRegistry.Toml
