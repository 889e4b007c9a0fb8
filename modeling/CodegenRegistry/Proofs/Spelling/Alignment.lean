import CodegenRegistry.Text.EditDistance
/-!
# Alignments

An alignment deals with two lists from left to right. It keeps, deletes, inserts or replaces, or it
pairs two elements crosswise and pays for what lies between them on either side. Main statement: the
distance is the least cost of an alignment, although the recurrence only ever pairs an element
crosswise with its next occurrence.
-/

namespace CodegenRegistry.Text.EditDistance

variable {α : Type}

/-- The first list can be aligned with the second one at a cost of at most the given number. -/
inductive Aligned : List α → List α → Nat → Prop
  | nil (n : Nat) : Aligned [] [] n
  | keep {v w : List α} {n : Nat} (a : α) (rest : Aligned v w n) : Aligned (a :: v) (a :: w) n
  | delete {v w : List α} {n : Nat} (a : α) (rest : Aligned v w n) : Aligned (a :: v) w (n + 1)
  | insert {v w : List α} {n : Nat} (b : α) (rest : Aligned v w n) : Aligned v (b :: w) (n + 1)
  | replace {v w : List α} {n : Nat} (a b : α) (rest : Aligned v w n) :
      Aligned (a :: v) (b :: w) (n + 1)
  | cross {v w : List α} {n : Nat} (a b : α) (gone new : List α) (rest : Aligned v w n) :
      Aligned (a :: (gone ++ b :: v)) (b :: (new ++ a :: w)) (n + gone.length + new.length + 1)

namespace Aligned

variable {v w : List α} {n m : Nat}

theorem slack (h : Aligned v w n) (k : Nat) : Aligned v w (n + k) := by
  induction h with
  | nil n => exact .nil (n + k)
  | keep a _ ih => exact ih.keep a
  | delete a _ ih =>
      rw [Nat.add_right_comm]
      exact ih.delete a
  | insert b _ ih =>
      rw [Nat.add_right_comm]
      exact ih.insert b
  | replace a b _ ih =>
      rw [Nat.add_right_comm]
      exact ih.replace a b
  | @cross v w n a b gone new _ ih =>
      have hcost : n + gone.length + new.length + 1 + k =
          n + k + gone.length + new.length + 1 := by omega
      rw [hcost]
      exact ih.cross a b gone new

theorem mono (h : Aligned v w n) (hle : n ≤ m) : Aligned v w m := by
  obtain ⟨k, rfl⟩ := Nat.exists_eq_add_of_le hle
  exact h.slack k

theorem refl (v : List α) (n : Nat) : Aligned v v n := by
  induction v with
  | nil => exact .nil n
  | cons a v ih => exact ih.keep a

theorem deletes (h : Aligned v w n) (gone : List α) : Aligned (gone ++ v) w (n + gone.length) := by
  induction gone with
  | nil => exact h
  | cons a gone ih => exact ih.delete a

theorem inserts (h : Aligned v w n) (new : List α) : Aligned v (new ++ w) (n + new.length) := by
  induction new with
  | nil => exact h
  | cons b new ih => exact ih.insert b

theorem cheaper (hn : Aligned v w n) (hm : Aligned v w m) : Aligned v w (min n m) := by
  rcases Nat.le_total n m with h | h
  · rwa [Nat.min_eq_left h]
  · rwa [Nat.min_eq_right h]

theorem symm (h : Aligned v w n) : Aligned w v n := by
  induction h with
  | nil n => exact .nil n
  | keep a _ ih => exact ih.keep a
  | delete a _ ih => exact ih.insert a
  | insert b _ ih => exact ih.delete b
  | replace a b _ ih => exact ih.replace b a
  | cross a b gone new _ ih => exact (ih.cross b a new gone).mono (by omega)

theorem eq_of_zero (h : Aligned v w 0) : v = w := by
  generalize hn : 0 = n at h
  induction h with
  | nil => rfl
  | keep a _ ih => rw [ih hn]
  | delete | insert | replace | cross => omega

end Aligned

/-! ## The recurrence finds a cheapest alignment -/

variable [DecidableEq α]

theorem past_append (b : α) (gone v : List α) :
    ∃ k after, past b (gone ++ b :: v) = some (k, after ++ v) ∧ k + after.length = gone.length := by
  induction gone with
  | nil => exact ⟨0, [], by simp [past]⟩
  | cons x gone ih =>
      by_cases hx : x = b
      · exact ⟨0, gone ++ [b], by simp [past, hx]⟩
      · obtain ⟨k, after, hpast, hlength⟩ := ih
        refine ⟨k + 1, after, by simp [past, hx, hpast], ?_⟩
        simp only [List.length_cons]
        omega

theorem distance_cons_left_le (a : α) (v w : List α) : distance (a :: v) w ≤ distance v w + 1 := by
  cases w with
  | nil => simp
  | cons b w =>
      rw [distance]
      split <;> omega

theorem distance_cons_right_le (b : α) (v w : List α) :
    distance v (b :: w) ≤ distance v w + 1 := by
  cases v with
  | nil => simp
  | cons a v =>
      rw [distance]
      split <;> omega

theorem distance_cons_cons_le (a b : α) (v w : List α) :
    distance (a :: v) (b :: w) ≤ distance v w + if a = b then 0 else 1 := by
  rw [distance]
  split <;> omega

theorem distance_le_of_past {a b : α} {v w v' w' : List α} {k l : Nat}
    (hv : past b v = some (k, v')) (hw : past a w = some (l, w')) :
    distance (a :: v) (b :: w) ≤ k + 1 + l + distance v' w' := by
  rw [distance]
  split
  · simp_all only [Option.some.injEq, Prod.mk.injEq]
    omega
  · rename_i hnone
    exact (hnone k v' l w' hv hw).elim

theorem distance_append_left_le (gone v w : List α) :
    distance (gone ++ v) w ≤ gone.length + distance v w := by
  induction gone with
  | nil => simp
  | cons a gone ih =>
      have hdelete := distance_cons_left_le a (gone ++ v) w
      simp only [List.cons_append, List.length_cons]
      omega

theorem distance_append_right_le (new v w : List α) :
    distance v (new ++ w) ≤ new.length + distance v w := by
  induction new with
  | nil => simp
  | cons b new ih =>
      have hinsert := distance_cons_right_le b v (new ++ w)
      simp only [List.cons_append, List.length_cons]
      omega

/-- What becomes of the two heads when they are not paired crosswise. -/
private theorem aligned_single {a b : α} {v w : List α} {x y z : Nat}
    (hdelete : Aligned v (b :: w) x) (hinsert : Aligned (a :: v) w y) (hpair : Aligned v w z) :
    Aligned (a :: v) (b :: w) (min (min x y + 1) (z + if a = b then 0 else 1)) := by
  have hpaired : Aligned (a :: v) (b :: w) (z + if a = b then 0 else 1) := by
    split
    · rename_i hab
      subst hab
      exact hpair.keep a
    · exact hpair.replace a b
  have hone : Aligned (a :: v) (b :: w) (min x y + 1) :=
    ((hdelete.delete a).cheaper (hinsert.insert b)).mono (by omega)
  exact hone.cheaper hpaired

theorem aligned_distance (v w : List α) : Aligned v w (distance v w) := by
  fun_induction distance v w with
  | case1 w => simpa using (Aligned.nil 0).inserts w
  | case2 v _ => simpa using (Aligned.nil 0).deletes v
  | case3 a v b w single k v' l w' hv hw hdelete hinsert hpair hcross =>
      obtain ⟨gone, rfl, rfl, -⟩ := past_eq_some hv
      obtain ⟨new, rfl, rfl, -⟩ := past_eq_some hw
      have hcrossed : Aligned (a :: (gone ++ b :: v')) (b :: (new ++ a :: w'))
          (gone.length + 1 + new.length + distance v' w') :=
        (hcross.cross a b gone new).mono (by omega)
      exact (aligned_single hdelete hinsert hpair).cheaper hcrossed
  | case4 a v b w single _ hdelete hinsert hpair => exact aligned_single hdelete hinsert hpair

theorem distance_le_of_aligned {v w : List α} {n : Nat} (h : Aligned v w n) :
    distance v w ≤ n := by
  induction h with
  | nil n => simp
  | @keep v w n a _ ih =>
      have hkeep : distance (a :: v) (a :: w) ≤ distance v w := by
        simpa using distance_cons_cons_le a a v w
      omega
  | @delete v w n a _ ih =>
      have hdelete := distance_cons_left_le a v w
      omega
  | @insert v w n b _ ih =>
      have hinsert := distance_cons_right_le b v w
      omega
  | @replace v w n a b _ ih =>
      have hreplace := distance_cons_cons_le a b v w
      split at hreplace <;> omega
  | @cross v w n a b gone new _ ih =>
      -- the next occurrence may come earlier; what then follows it is deleted or inserted singly
      obtain ⟨k, later, hpast, hk⟩ := past_append b gone v
      obtain ⟨l, later', hpast', hl⟩ := past_append a new w
      have hcross := distance_le_of_past hpast hpast'
      have hgone := distance_append_left_le later v (later' ++ w)
      have hnew := distance_append_right_le later' v w
      omega

/-- The distance is the least cost of an alignment. -/
theorem distance_le_iff_aligned {v w : List α} {n : Nat} :
    distance v w ≤ n ↔ Aligned v w n :=
  ⟨fun h => (aligned_distance v w).mono h, distance_le_of_aligned⟩

theorem distance_comm (v w : List α) : distance v w = distance w v :=
  Nat.le_antisymm (distance_le_of_aligned (aligned_distance w v).symm)
    (distance_le_of_aligned (aligned_distance v w).symm)

theorem distance_eq_zero_iff {v w : List α} : distance v w = 0 ↔ v = w := by
  rw [← Nat.le_zero, distance_le_iff_aligned]
  constructor
  · exact Aligned.eq_of_zero
  · rintro rfl
    exact .refl v 0

end CodegenRegistry.Text.EditDistance
