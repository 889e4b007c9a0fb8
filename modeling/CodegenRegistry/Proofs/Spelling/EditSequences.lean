import CodegenRegistry.Proofs.Spelling.Alignment
import CodegenRegistry.Proofs.Spelling.Search
/-!
# Sequences of edits

Edits follow one another, each of what the ones before it have left, so a swap may move what was
inserted just before and may be torn apart just after. Main statement: the distance is the least
number of edits. Hence what is near enough for a hint can be told without the recurrence.
-/

namespace CodegenRegistry.Text.EditDistance

variable {α : Type}

/-- One edit, at the front of a list or further on: an element is inserted, deleted or replaced, or
two neighbours change places. -/
inductive Edit : List α → List α → Prop
  | insert (c : α) (v : List α) : Edit v (c :: v)
  | delete (c : α) (v : List α) : Edit (c :: v) v
  | replace (c d : α) (v : List α) : Edit (c :: v) (d :: v)
  | swap (c d : α) (v : List α) : Edit (c :: d :: v) (d :: c :: v)
  | further {v w : List α} (a : α) (rest : Edit v w) : Edit (a :: v) (a :: w)

/-- The first list becomes the second one by at most `n` edits, each of what the ones before it have
left. -/
inductive Edits : Nat → List α → List α → Prop
  | done (n : Nat) (v : List α) : Edits n v v
  | step {n : Nat} {u v w : List α} (first : Edit u v) (rest : Edits n v w) : Edits (n + 1) u w

variable {u v w : List α} {n : Nat}

/-- What a list with a given head can have been one edit before. -/
theorem Edit.cons_right {a : α} (h : Edit u (a :: v)) :
    u = v ∨ (∃ c, u = c :: a :: v) ∨ (∃ c, u = c :: v) ∨
      (∃ c t, v = c :: t ∧ u = c :: a :: t) ∨ ∃ u', u = a :: u' ∧ Edit u' v := by
  cases h with
  | insert => exact .inl rfl
  | delete c => exact .inr (.inl ⟨c, rfl⟩)
  | replace c => exact .inr (.inr (.inl ⟨c, rfl⟩))
  | swap c d t => exact .inr (.inr (.inr (.inl ⟨c, t, rfl, rfl⟩)))
  | further _ rest => exact .inr (.inr (.inr (.inr ⟨_, rfl, rest⟩)))

/-- What a list with a marked element can have been one edit before. Only what stands before the
mark was another, or what stands behind it was one edit away, or the mark was not there. Where the
edit moved the mark one of the last two holds. -/
theorem Edit.around {b : α} {before v : List α} (h : Edit u (before ++ b :: v)) :
    (∃ before', u = before' ++ b :: v ∧ before'.length ≤ before.length + 1) ∨
      (∃ before' v', u = before' ++ b :: v' ∧ before'.length ≤ before.length ∧ Edit v' v) ∨
      ∃ v', u = before ++ v' ∧ (v' = v ∨ Edit v' v) := by
  induction before generalizing u with
  | nil =>
      rcases h.cons_right with rfl | ⟨c, rfl⟩ | ⟨c, rfl⟩ | ⟨c, t, rfl, rfl⟩ | ⟨v', rfl, hv⟩
      · exact .inr (.inr ⟨u, rfl, .inl rfl⟩)
      · exact .inl ⟨[c], rfl, by simp⟩
      · exact .inr (.inr ⟨c :: v, rfl, .inr (.delete c v)⟩)
      · exact .inr (.inr ⟨c :: b :: t, rfl, .inr (.further c (.delete b t))⟩)
      · exact .inr (.inl ⟨[], v', rfl, Nat.le_refl 0, hv⟩)
  | cons x before ih =>
      rcases h.cons_right with rfl | ⟨c, rfl⟩ | ⟨c, rfl⟩ | ⟨c, t, hsplit, rfl⟩ | ⟨u', rfl, hu⟩
      · exact .inl ⟨before, rfl, by rw [List.length_cons]; omega⟩
      · exact .inl ⟨c :: x :: before, rfl, by simp⟩
      · exact .inl ⟨c :: before, rfl, by simp⟩
      · cases before with
        | nil =>
            obtain ⟨rfl, rfl⟩ := List.cons.inj hsplit
            exact .inr (.inl ⟨[], x :: v, rfl, Nat.zero_le _, .delete x v⟩)
        | cons y before =>
            obtain ⟨rfl, rfl⟩ := List.cons.inj hsplit
            exact .inl ⟨y :: x :: before, rfl, by simp⟩
      · rcases ih hu with ⟨before', rfl, hle⟩ | ⟨before', v', rfl, hle, hv⟩ | ⟨v', rfl, hv⟩
        · exact .inl ⟨x :: before', rfl, by simpa using hle⟩
        · exact .inr (.inl ⟨x :: before', v', rfl, by simpa using hle, hv⟩)
        · exact .inr (.inr ⟨v', rfl, hv⟩)

namespace Aligned

/-- An element that has just been kept may be put behind the next one. -/
theorem swap_kept {c : α} {t : List α} (d : α) (h : Aligned (c :: t) w n) (new : List α) :
    Aligned (c :: d :: t) (d :: (new ++ w)) (n + new.length + 1) := by
  -- by what becomes of `c`, with what was inserted before it collected in `new`
  generalize hv : c :: t = v at h
  induction h generalizing new with
  | nil => cases hv
  | keep a rest =>
      obtain ⟨rfl, rfl⟩ := List.cons.inj hv
      exact rest.cross c d [] new
  | delete a rest =>
      obtain ⟨rfl, rfl⟩ := List.cons.inj hv
      exact (((rest.inserts new).keep d).delete c).mono (by omega)
  | @insert v w n b rest ih =>
      have hlater := ih (new ++ [b]) hv
      rw [List.append_assoc, List.length_append, List.length_singleton] at hlater
      exact hlater.mono (by omega)
  | @replace v w n a b rest =>
      obtain ⟨rfl, rfl⟩ := List.cons.inj hv
      exact ((((rest.insert b).inserts new).keep d).delete c).mono (by omega)
  | @cross v w n a b gone new' rest =>
      obtain ⟨rfl, rfl⟩ := List.cons.inj hv
      have hlater := ((((rest.insert c).inserts new').keep b).deletes gone).inserts new
      exact ((hlater.keep d).delete c).mono (by omega)

/-- A crossing takes up an edit. If the edit is not on one side of the crossing, it is given up. -/
theorem cross_of_edit {a b : α} {gone new : List α} (rest : Aligned v w n)
    (hrest : ∀ {v'}, Edit v' v → Aligned v' w (n + 1)) (hedit : Edit u (a :: (gone ++ b :: v))) :
    Aligned u (b :: (new ++ a :: w)) (n + gone.length + new.length + 1 + 1) := by
  -- without the crossing `b` is kept, and what stood before it goes
  have huncrossed := (((rest.insert a).inserts new).keep b).deletes gone
  rcases hedit.cons_right with rfl | ⟨c, rfl⟩ | ⟨c, rfl⟩ | ⟨c, t, hsplit, rfl⟩ | ⟨u', rfl, hu⟩
  · exact huncrossed.mono (by omega)
  · exact (rest.cross a b gone new).delete c
  · exact (huncrossed.delete c).mono (by omega)
  · cases gone with
    | nil =>
        obtain ⟨rfl, rfl⟩ := List.cons.inj hsplit
        exact (((rest.keep a).inserts new).keep b).mono (by omega)
    | cons x gone =>
        obtain ⟨rfl, rfl⟩ := List.cons.inj hsplit
        have hlength : (x :: gone).length = gone.length + 1 := List.length_cons
        exact ((rest.cross a b gone new).delete x).mono (by omega)
  · rcases hu.around with ⟨gone', rfl, hle⟩ | ⟨gone', v', rfl, hle, hv⟩ | ⟨v', rfl, hv⟩
    · exact (rest.cross a b gone' new).mono (by omega)
    · exact ((hrest hv).cross a b gone' new).mono (by omega)
    · have hlater : Aligned v' w (n + 1) := by
        rcases hv with rfl | hv
        · exact rest.mono (by omega)
        · exact hrest hv
      exact ((((hlater.deletes gone).keep a).inserts new).insert b).mono (by omega)

theorem of_edit (h : Aligned v w n) (hedit : Edit u v) : Aligned u w (n + 1) := by
  -- an edit at the front goes with what the alignment does first, one further on with its rest
  induction h generalizing u with
  | nil n =>
      cases hedit with
      | delete c => exact (Aligned.nil n).delete c
  | @insert v w n b _ ih => exact (ih hedit).insert b
  | @keep v w n a rest ih =>
      rcases hedit.cons_right with rfl | ⟨c, rfl⟩ | ⟨c, rfl⟩ | ⟨c, t, rfl, rfl⟩ | ⟨v', rfl, hv⟩
      · exact rest.insert a
      · exact (rest.keep a).delete c
      · exact rest.replace c a
      · exact rest.swap_kept a []
      · exact (ih hv).keep a
  | @delete v w n a rest ih =>
      rcases hedit.cons_right with rfl | ⟨c, rfl⟩ | ⟨c, rfl⟩ | ⟨c, t, rfl, rfl⟩ | ⟨v', rfl, hv⟩
      · exact rest.mono (by omega)
      · exact (rest.delete a).delete c
      · exact (rest.delete c).mono (by omega)
      · exact (ih (.further c (.delete a t))).mono (by omega)
      · exact (ih hv).delete a
  | @replace v w n a b rest ih =>
      rcases hedit.cons_right with rfl | ⟨c, rfl⟩ | ⟨c, rfl⟩ | ⟨c, t, rfl, rfl⟩ | ⟨v', rfl, hv⟩
      · exact (rest.insert b).mono (by omega)
      · exact (rest.replace a b).delete c
      · exact (rest.replace c b).mono (by omega)
      · exact (ih (.further c (.delete a t))).insert b
      · exact (ih hv).replace a b
  | @cross v w n a b gone new rest ih => exact cross_of_edit rest (fun hv => ih hv) hedit

end Aligned

namespace Edits

theorem of_edit (h : Edit v w) : Edits 1 v w :=
  .step h (.done 0 w)

theorem mono {m : Nat} (h : Edits n v w) (hle : n ≤ m) : Edits m v w := by
  induction h generalizing m with
  | done _ v => exact .done m v
  | step first _ ih =>
      obtain ⟨k, rfl⟩ := Nat.exists_eq_add_of_le' hle
      exact .step first (ih (Nat.le_add_left _ k))

theorem trans {m : Nat} (h : Edits n u v) (h' : Edits m v w) : Edits (n + m) u w := by
  induction h with
  | done n v => exact h'.mono (by omega)
  | step first _ ih => exact (Edits.step first (ih h')).mono (by omega)

theorem cons (a : α) (h : Edits n v w) : Edits n (a :: v) (a :: w) := by
  induction h with
  | done n v => exact .done n (a :: v)
  | step first _ ih => exact .step (.further a first) ih

theorem deletes (gone v : List α) : Edits gone.length (gone ++ v) v := by
  induction gone with
  | nil => exact .done 0 v
  | cons a gone ih => exact .step (.delete a (gone ++ v)) ih

theorem inserts (new v : List α) : Edits new.length v (new ++ v) := by
  induction new with
  | nil => exact .done 0 v
  | cons b new ih => exact ih.trans (.of_edit (.insert b (new ++ v)))

/-- The elements between two that are paired crosswise go before these become neighbours and come
after these have changed places. -/
theorem cross (a b : α) (gone new v : List α) :
    Edits (gone.length + 1 + new.length) (a :: (gone ++ b :: v)) (b :: (new ++ a :: v)) := by
  have hgone : Edits gone.length (a :: (gone ++ b :: v)) (a :: b :: v) := (deletes gone _).cons a
  have hswap : Edits 1 (a :: b :: v) (b :: a :: v) := .of_edit (.swap a b v)
  have hnew : Edits new.length (b :: a :: v) (b :: (new ++ a :: v)) := (inserts new _).cons b
  exact (hgone.trans hswap).trans hnew

theorem append_left (before : List α) (h : Edits n v w) : Edits n (before ++ v) (before ++ w) := by
  induction before with
  | nil => exact h
  | cons a before ih => exact ih.cons a

theorem of_aligned (h : Aligned v w n) : Edits n v w := by
  induction h with
  | nil n => exact .done n []
  | keep a _ ih => exact ih.cons a
  | @delete v w n a _ ih => exact .step (.delete a v) ih
  | @insert v w n b _ ih => exact .step (.insert b v) (ih.cons b)
  | @replace v w n a b _ ih => exact .step (.replace a b v) (ih.cons b)
  | @cross v w n a b gone new _ ih =>
      have hlater : Edits n (b :: (new ++ a :: v)) (b :: (new ++ a :: w)) :=
        ((ih.cons a).append_left new).cons b
      exact ((cross a b gone new v).trans hlater).mono (by omega)

theorem aligned (h : Edits n v w) : Aligned v w n := by
  induction h with
  | done n v => exact .refl v n
  | step first _ ih => exact ih.of_edit first

end Edits

variable [DecidableEq α]

theorem distance_le_iff_edits : distance v w ≤ n ↔ Edits n v w :=
  distance_le_iff_aligned.trans ⟨Edits.of_aligned, Edits.aligned⟩

theorem edits_comm : Edits n v w ↔ Edits n w v := by
  rw [← distance_le_iff_edits, ← distance_le_iff_edits, distance_comm]

instance (n : Nat) (v w : List α) : Decidable (Edits n v w) :=
  decidable_of_iff (byRows v w ≤ n) (by rw [byRows_eq, distance_le_iff_edits])

/-- The `b` comes to stand between the two elements that have changed places. -/
example : Edits 2 "ca".toList "abc".toList ∧ ¬ Edits 1 "ca".toList "abc".toList := by decide +kernel

end CodegenRegistry.Text.EditDistance

namespace CodegenRegistry.Spelling

open Text.EditDistance

theorem suggest_single_iff {n : Nat} {word c : String} :
    suggest (.fixed n) word [c] = some c ↔ c ≠ word ∧ distance word c ≤ n := by
  rw [suggest_eq_some_iff]
  constructor
  · intro h
    exact ⟨h.1.ne_word, h.1.within⟩
  · intro h
    refine ⟨⟨List.mem_singleton_self c, h.1, h.2⟩, ?_⟩
    intro c' hc' hne
    exact absurd (List.mem_singleton.1 hc'.candidate) hne

/-- With a fixed cutoff the one candidate is hinted at exactly when the word becomes it by no more
edits than that, and it is another word. The word would then be hinted at for the candidate too. -/
theorem suggest_single_iff_edits (n : Nat) (word c : String) :
    (suggest (.fixed n) word [c] = some c ↔ c ≠ word ∧ Edits n word.toList c.toList) ∧
      (suggest (.fixed n) word [c] = some c ↔ suggest (.fixed n) c [word] = some word) := by
  have hsingle : ∀ word c : String, suggest (.fixed n) word [c] = some c ↔
      c ≠ word ∧ Edits n word.toList c.toList := by
    intro word c
    rw [suggest_single_iff, distance_eq, distance_le_iff_edits]
  refine ⟨hsingle word c, ?_⟩
  rw [hsingle, hsingle, ne_comm, edits_comm]

end CodegenRegistry.Spelling
