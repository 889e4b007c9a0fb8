import CodegenRegistry.Toml.Item
import CodegenRegistry.Toml.Number
/-!
# TOML values

Values are read from tokens: strings, integers, booleans, arrays and inline tables. Numbers with a
fraction or an exponent and dates are refused, for no setting holds them. Each reader gives what it
read together with the tokens that follow, which are always fewer.
-/

namespace CodegenRegistry.Toml

namespace Key

/-- One part of a dotted key. Plus signs stand in numbers only. -/
def part? : Token → Option String
  | .word s => if '+' ∈ s.toList then none else some s
  | .text s => some s
  | _ => none

def path? : List Token → Option (List String × List Token)
  | [] => none
  | t :: .dot :: ts =>
    (part? t).bind fun k => (path? ts).map fun (path, rest) => (k :: path, rest)
  | t :: ts => (part? t).map fun k => ([k], ts)

theorem length_path? {ts rest : List Token} {path : List String}
    (h : path? ts = some (path, rest)) : rest.length < ts.length := by
  fun_induction path? ts generalizing path with
  | case1 => simp at h
  | case2 t ts ih =>
      obtain ⟨k, _, h⟩ := Option.bind_eq_some_iff.1 h
      obtain ⟨⟨path', rest'⟩, hp, h⟩ := Option.map_eq_some_iff.1 h
      obtain ⟨-, rfl⟩ := Prod.mk.inj h
      have := ih hp
      simp only [List.length_cons]
      omega
  | case3 t ts =>
      obtain ⟨k, _, h⟩ := Option.map_eq_some_iff.1 h
      obtain ⟨-, rfl⟩ := Prod.mk.inj h
      simp

end Key

namespace Item

def ofWord? (s : String) : Option Item :=
  if s = "true" then some (boolean true)
  else if s = "false" then some (boolean false)
  else (Number.integer? s.toList).map integer

def dropNewlines (ts : List Token) : List Token :=
  ts.dropWhile (· = .newline)

theorem length_dropNewlines (ts : List Token) : (dropNewlines ts).length ≤ ts.length :=
  (List.dropWhile_sublist _).length_le

mutual

/-- A value, and what follows it, with at most so many calls inside one another; `read?` allows
enough of them. -/
def within? : Nat → List Token → Option (Item × List Token)
  | 0, _ | _, [] => none
  | fuel + 1, t :: ts =>
    match t with
    | .word s => (Item.ofWord? s).map fun item => (item, ts)
    | .text s | .block s => some (.string s, ts)
    | .openBracket => (elementsWithin? fuel ts).map fun (items, rest) => (.array items, rest)
    | .openBrace => (fieldsWithin? fuel [] ts).map fun (es, rest) => (.table .braces es, rest)
    | _ => none

/-- The elements of an array up to its bracket. A comma may follow the last one. -/
def elementsWithin? : Nat → List Token → Option (List Item × List Token)
  | 0, _ => none
  | fuel + 1, ts =>
    match dropNewlines ts with
    | .closeBracket :: rest => some ([], rest)
    | ts =>
      (within? fuel ts).bind fun (item, rest) =>
        match dropNewlines rest with
        | .closeBracket :: rest => some ([item], rest)
        | .comma :: rest => (elementsWithin? fuel rest).map fun (items, rest) => (item :: items, rest)
        | _ => none

/-- The entries of an inline table up to its brace, added to those before. Lines may end anywhere
but inside a key. -/
def fieldsWithin? : Nat → Entries → List Token → Option (Entries × List Token)
  | 0, _, _ => none
  | fuel + 1, es, ts =>
    match dropNewlines ts with
    | .closeBrace :: rest => some (es, rest)
    | ts =>
      (Key.path? ts).bind fun (path, rest) =>
        match dropNewlines rest with
        | .equals :: rest =>
          (within? fuel (dropNewlines rest)).bind fun (item, rest) =>
            (es.assign path item).bind fun es =>
              match dropNewlines rest with
              | .closeBrace :: rest => some (es, rest)
              | .comma :: rest => fieldsWithin? fuel es rest
              | _ => none
        | _ => none

end

/-! ## What follows is shorter -/

private theorem lengths (fuel : Nat) :
    (∀ ts item rest, within? fuel ts = some (item, rest) → rest.length < ts.length) ∧
    (∀ ts items rest, elementsWithin? fuel ts = some (items, rest) → rest.length < ts.length) ∧
    ∀ es ts es' rest, fieldsWithin? fuel es ts = some (es', rest) → rest.length < ts.length := by
  induction fuel with
  | zero => simp [within?, elementsWithin?, fieldsWithin?]
  | succ fuel ih =>
      obtain ⟨ihv, ihe, ihf⟩ := ih
      refine ⟨fun ts item rest h => ?_, fun ts items rest h => ?_, fun es ts es' rest h => ?_⟩
      · cases ts with
        | nil => simp [within?] at h
        | cons t ts =>
            rw [within?.eq_def] at h
            cases t <;> simp only [Option.map_eq_some_iff, Prod.mk.injEq, Prod.exists,
              Option.some.injEq, reduceCtorEq] at h <;> simp only [List.length_cons]
            all_goals grind
      · have hts := length_dropNewlines ts
        rw [elementsWithin?.eq_def] at h
        simp only at h
        split at h
        · rename_i heq
          grind
        · obtain ⟨⟨item, r⟩, hv, h⟩ := Option.bind_eq_some_iff.1 h
          have := ihv _ _ _ hv
          have := length_dropNewlines r
          simp only at h
          split at h
          · grind
          · obtain ⟨⟨items', r'⟩, he, h⟩ := Option.map_eq_some_iff.1 h
            have := ihe _ _ _ he
            grind
          · simp at h
      · have hts := length_dropNewlines ts
        rw [fieldsWithin?.eq_def] at h
        simp only at h
        split at h
        · grind
        · obtain ⟨⟨path, r⟩, hp, h⟩ := Option.bind_eq_some_iff.1 h
          have := Key.length_path? hp
          have := length_dropNewlines r
          simp only at h
          split at h
          · rename_i r₁ _
            have := length_dropNewlines r₁
            obtain ⟨⟨item, r'⟩, hv, h⟩ := Option.bind_eq_some_iff.1 h
            have := ihv _ _ _ hv
            obtain ⟨es'', _, h⟩ := Option.bind_eq_some_iff.1 h
            have := length_dropNewlines r'
            simp only at h
            split at h
            · grind
            · have := ihf _ _ _ _ h
              grind
            · simp at h
          · simp at h

/-! ## Bounds that are never met -/

private theorem bounds_suffice (fuel : Nat) :
    (∀ ts, 2 * ts.length ≤ fuel → within? (fuel + 1) ts = within? fuel ts) ∧
    (∀ ts, 2 * ts.length < fuel → elementsWithin? (fuel + 1) ts = elementsWithin? fuel ts) ∧
    ∀ es ts, 2 * ts.length < fuel →
      fieldsWithin? (fuel + 1) es ts = fieldsWithin? fuel es ts := by
  induction fuel with
  | zero =>
      refine ⟨fun ts h => ?_, fun ts h => ?_, fun es ts h => ?_⟩
      · obtain rfl := List.eq_nil_of_length_eq_zero (show ts.length = 0 by omega)
        simp [within?]
      · simp at h
      · simp at h
  | succ fuel ih =>
      obtain ⟨ihv, ihe, ihf⟩ := ih
      refine ⟨fun ts h => ?_, fun ts h => ?_, fun es ts h => ?_⟩
      · cases ts with
        | nil => simp [within?]
        | cons t ts =>
            have hts : 2 * ts.length < fuel := by
              simp only [List.length_cons] at h
              omega
            rw [within?.eq_def, within?.eq_def (fuel + 1)]
            simp only [ihe ts hts, ihf [] ts hts]
      · have hts := length_dropNewlines ts
        rw [elementsWithin?.eq_def, elementsWithin?.eq_def (fuel + 1)]
        simp only
        split
        · rfl
        · rw [ihv _ (by omega)]
          cases hv : within? fuel (dropNewlines ts) with
          | none => rfl
          | some p =>
              have := (lengths fuel).1 _ p.1 p.2 hv
              have := length_dropNewlines p.2
              simp only [Option.bind_some]
              split
              · rfl
              · rename_i rest heq
                have hrest := congrArg List.length heq
                simp only [List.length_cons] at hrest
                rw [ihe rest (by omega)]
              · rfl
      · have hts := length_dropNewlines ts
        rw [fieldsWithin?.eq_def, fieldsWithin?.eq_def (fuel + 1)]
        simp only
        split
        · rfl
        · cases hp : Key.path? (dropNewlines ts) with
          | none => rfl
          | some q =>
              have hq : Key.path? (dropNewlines ts) = some (q.1, q.2) := hp
              have := Key.length_path? hq
              have := length_dropNewlines q.2
              simp only [Option.bind_some]
              split
              · rename_i r heq
                have hr := congrArg List.length heq
                have := length_dropNewlines r
                simp only [List.length_cons] at hr
                rw [ihv (dropNewlines r) (by omega)]
                cases hv : within? fuel (dropNewlines r) with
                | none => rfl
                | some p =>
                    have := (lengths fuel).1 _ p.1 p.2 hv
                    have := length_dropNewlines p.2
                    simp only [Option.bind_some]
                    cases es.assign q.1 p.1 with
                    | none => rfl
                    | some es =>
                        simp only [Option.bind_some]
                        split
                        · rfl
                        · rename_i rest heq
                          have hrest := congrArg List.length heq
                          simp only [List.length_cons] at hrest
                          rw [ihf es rest (by omega)]
                        · rfl
              · rfl

def read? (ts : List Token) : Option (Item × List Token) :=
  within? (2 * ts.length) ts

theorem within?_eq (ts : List Token) (k : Nat) :
    within? (2 * ts.length + k) ts = read? ts := by
  induction k with
  | zero => rfl
  | succ k ih => rw [← ih, ← Nat.add_assoc, (bounds_suffice _).1 ts (by omega)]

theorem length_read? {ts rest : List Token} {item : Item}
    (h : read? ts = some (item, rest)) : rest.length < ts.length :=
  (lengths _).1 _ _ _ h

end Item

end CodegenRegistry.Toml
