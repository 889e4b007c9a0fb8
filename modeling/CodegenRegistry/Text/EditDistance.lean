/-!
# Edit distance

The distance between two lists counts insertions, deletions, replacements and swaps of neighbours,
where a swap may straddle later insertions and deletions. `distance` is the recurrence;
`byRows` fills one row of it at a time, and `byRows_eq` says that the two agree.
-/

namespace CodegenRegistry.Text.EditDistance

variable {α : Type} [DecidableEq α]

/-- What follows the first `c` of a list, with the number of elements before it. -/
def past (c : α) : List α → Option (Nat × List α)
  | [] => none
  | x :: xs => if x = c then some (0, xs) else (past c xs).map fun (k, rest) => (k + 1, rest)

theorem past_eq_some {c : α} {xs rest : List α} {k : Nat} (h : past c xs = some (k, rest)) :
    ∃ before, xs = before ++ c :: rest ∧ before.length = k ∧ c ∉ before := by
  induction xs generalizing k rest with
  | nil => simp [past] at h
  | cons x xs ih =>
      rw [past] at h
      split at h
      · obtain ⟨rfl, rfl⟩ : 0 = k ∧ xs = rest := by simpa using h
        exact ⟨[], by simp_all⟩
      · rename_i hx
        obtain ⟨⟨k', rest'⟩, hk', heq⟩ := Option.map_eq_some_iff.1 h
        obtain ⟨rfl, rfl⟩ : k' + 1 = k ∧ rest' = rest := by simpa using heq
        obtain ⟨before, rfl, rfl, hc⟩ := ih hk'
        exact ⟨x :: before, by simp, by simp, by simp [hc, Ne.symm hx]⟩

theorem length_of_past {c : α} {xs rest : List α} {k : Nat} (h : past c xs = some (k, rest)) :
    xs.length = k + 1 + rest.length := by
  obtain ⟨before, rfl, rfl, _⟩ := past_eq_some h
  simp
  omega

theorem drop_of_past {c : α} {xs rest : List α} {k : Nat} (h : past c xs = some (k, rest)) :
    xs.drop (k + 1) = rest := by
  obtain ⟨before, rfl, rfl, _⟩ := past_eq_some h
  simp [List.drop_append]

/-- The least cost of turning one list into the other. Two heads are dealt with by deleting one,
by inserting one, by keeping or replacing one, or by swapping: each head is matched with its next
occurrence on the other side, and what lies between is deleted and inserted. -/
def distance : List α → List α → Nat
  | [], bs => bs.length
  | as, [] => as.length
  | a :: as, b :: bs =>
    let single :=
      min (min (distance as (b :: bs)) (distance (a :: as) bs) + 1)
        (distance as bs + if a = b then 0 else 1)
    match h : past b as, h' : past a bs with
    | some (k, as'), some (l, bs') => min single (k + 1 + l + distance as' bs')
    | _, _ => single
termination_by as bs => as.length + bs.length
decreasing_by
  · simp
  · simp
  · simp only [List.length_cons]
    omega
  · have := length_of_past h
    have := length_of_past h'
    simp only [List.length_cons]
    omega

@[simp] theorem distance_nil_left (bs : List α) : distance [] bs = bs.length := by
  rw [distance]

@[simp] theorem distance_nil_right (as : List α) : distance as [] = as.length := by
  cases as with
  | nil => simp
  | cons a as => rw [distance]; simp

/-! ## Filling the recurrence row by row -/

/-- What a column remembers of the elements above it: how many rows up its own element was last
met, and the part to its right of the row below that one. -/
abbrev Mark := Option (Nat × List Nat)

def nextMarks (a : α) : List α → List Mark → List Nat → List Mark
  | b :: bs, m :: ms, _ :: row =>
    (if a = b then some (0, row) else m.map fun (k, r) => (k + 1, r)) :: nextMarks a bs ms row
  | _, _, _ => []

def nextRow (a : α) : List α → List Mark → List Nat → List Nat
  | b :: bs, m :: ms, d :: row =>
    let rest := nextRow a bs ms row
    let single :=
      min (min d (rest.headD 0) + 1) (row.headD 0 + if a = b then 0 else 1)
    let best := match m, past a bs with
      | some (k, r), some (l, _) => min single (k + 1 + l + r.getD (l + 1) 0)
      | _, _ => single
    best :: rest
  | _, _, row => [row.headD 0 + 1]

def distances (as : List α) : List α → List Nat
  | [] => [distance as []]
  | b :: bs => distance as (b :: bs) :: distances as bs

def marks (as : List α) : List α → List Mark
  | [] => []
  | b :: bs => ((past b as).map fun (k, rest) => (k, distances rest bs)) :: marks as bs

def fill (bs : List α) : List α → List Mark × List Nat
  | [] => (marks [] bs, distances [] bs)
  | a :: as =>
    let above := fill bs as
    (nextMarks a bs above.1 above.2, nextRow a bs above.1 above.2)

/-- The edit distance in time proportional to the product of the lengths and of the gaps between
equal elements. -/
def byRows (as bs : List α) : Nat :=
  (fill bs as).2.headD 0

@[simp] private theorem headD_distances (as bs : List α) :
    (distances as bs).headD 0 = distance as bs := by
  cases bs <;> rfl

private theorem getD_distances (as : List α) {bs : List α} {n : Nat} (h : n ≤ bs.length) :
    (distances as bs).getD n 0 = distance as (bs.drop n) := by
  induction bs generalizing n with
  | nil =>
      obtain rfl : n = 0 := by simpa using h
      rfl
  | cons b bs ih =>
      cases n with
      | zero => rfl
      | succ n => simpa [distances] using ih (by simpa using h)

private theorem nextMarks_eq (a : α) (as bs : List α) :
    nextMarks a bs (marks as bs) (distances as bs) = marks (a :: as) bs := by
  induction bs with
  | nil => rfl
  | cons b bs ih =>
      rw [marks, distances, nextMarks, ih, marks, past]
      by_cases h : a = b
      · simp [h]
      · simp [h, Function.comp_def]

private theorem nextRow_eq (a : α) (as bs : List α) :
    nextRow a bs (marks as bs) (distances as bs) = distances (a :: as) bs := by
  induction bs with
  | nil => simp [distances, nextRow]
  | cons b bs ih =>
      simp only [marks, distances, nextRow, ih, headD_distances]
      rw [distance]
      cases past b as with
      | none => simp
      | some p =>
          cases ha : past a bs with
          | none => simp
          | some q =>
              have hl : q.1 + 1 ≤ bs.length := by
                have hq : past a bs = some (q.1, q.2) := ha
                have := length_of_past hq
                omega
              simp only [Option.map_some]
              rw [getD_distances p.2 hl, drop_of_past ha]

theorem fill_eq (as bs : List α) : fill bs as = (marks as bs, distances as bs) := by
  induction as with
  | nil => rfl
  | cons a as ih => rw [fill, ih, nextMarks_eq, nextRow_eq]

theorem byRows_eq (as bs : List α) : byRows as bs = distance as bs := by
  rw [byRows, fill_eq, headD_distances]

end CodegenRegistry.Text.EditDistance
