import CodegenRegistry.Position
import Mathlib
/-!
# Printed positions

A file may have any name, also one that looks like a printed position, so a text is taken apart from
its end: no numeral holds a colon. Main statement: the text of a position determines it, unless it
is nowhere.
-/

namespace CodegenRegistry.Position

private theorem eq_nil_of_cons_eq_append {α : Type} {mark : α} {ys ys' zs : List α}
    (hys : mark ∉ ys) (h : mark :: ys = zs ++ mark :: ys') : zs = [] ∧ ys = ys' := by
  cases zs with
  | nil => exact ⟨rfl, (List.cons.inj h).2⟩
  | cons z zs =>
      have htail : ys = zs ++ mark :: ys' := (List.cons.inj h).2
      exact absurd (htail ▸ List.mem_append_right zs List.mem_cons_self) hys

private theorem eq_of_append_cons_eq {α : Type} {mark : α} {xs xs' ys ys' : List α}
    (hys : mark ∉ ys) (hys' : mark ∉ ys') (h : xs ++ mark :: ys = xs' ++ mark :: ys') :
    xs = xs' ∧ ys = ys' := by
  rcases List.append_eq_append_iff.1 h with ⟨zs, rfl, htail⟩ | ⟨zs, rfl, htail⟩
  · obtain ⟨rfl, rfl⟩ := eq_nil_of_cons_eq_append hys htail
    exact ⟨(List.append_nil xs).symm, rfl⟩
  · obtain ⟨rfl, rfl⟩ := eq_nil_of_cons_eq_append hys' htail
    exact ⟨List.append_nil xs', rfl⟩

theorem colon_not_mem_repr (n : Nat) : ':' ∉ n.repr.toList := by
  rw [Nat.toList_repr]
  intro h
  exact absurd (Nat.isDigit_of_mem_toDigits (by decide) (by decide) h) (by decide)

theorem isNowhere_iff {p : Position} : p.isNowhere ↔ p.file = "" :=
  beq_iff_eq

theorem text_of_isNowhere {p : Position} (h : p.isNowhere) : p.text = "<none>" :=
  if_pos h

theorem toList_text {p : Position} (h : ¬ p.isNowhere) :
    p.text.toList =
      (p.file.toList ++ ':' :: p.line.repr.toList) ++ ':' :: p.column.repr.toList := by
  rw [text, if_neg h]
  simp

/-- A position that is somewhere has colons in its text, whatever its file is called. -/
theorem text_ne_none {p : Position} (h : ¬ p.isNowhere) : p.text ≠ "<none>" := by
  intro heq
  have hcolon : ':' ∈ p.text.toList := by simp [toList_text h]
  rw [heq] at hcolon
  exact absurd hcolon (by decide)

theorem eq_of_text_eq {p q : Position} (hp : ¬ p.isNowhere) (hq : ¬ q.isNowhere)
    (h : p.text = q.text) : p = q := by
  have hchars := congrArg String.toList h
  rw [toList_text hp, toList_text hq] at hchars
  -- the last colon is the one before the column, and then the last one is that before the line
  obtain ⟨hfront, hcolumn⟩ :=
    eq_of_append_cons_eq (colon_not_mem_repr _) (colon_not_mem_repr _) hchars
  obtain ⟨hfile, hline⟩ :=
    eq_of_append_cons_eq (colon_not_mem_repr _) (colon_not_mem_repr _) hfront
  obtain ⟨file, line, column⟩ := p
  obtain ⟨file', line', column'⟩ := q
  obtain rfl : file = file' := String.toList_inj.1 hfile
  obtain rfl : line = line' := Nat.repr_inj.1 (String.toList_inj.1 hline)
  obtain rfl : column = column' := Nat.repr_inj.1 (String.toList_inj.1 hcolumn)
  rfl

/-- Positions print alike if they are equal or both without a file, and only then. -/
theorem text_eq_text_iff (p q : Position) :
    p.text = q.text ↔ p = q ∨ (p.file = "" ∧ q.file = "") := by
  rw [← isNowhere_iff, ← isNowhere_iff]
  constructor
  · intro h
    by_cases hp : p.isNowhere
    · rw [text_of_isNowhere hp] at h
      by_cases hq : q.isNowhere
      · exact .inr ⟨hp, hq⟩
      · exact absurd h.symm (text_ne_none hq)
    · by_cases hq : q.isNowhere
      · rw [text_of_isNowhere hq] at h
        exact absurd h (text_ne_none hp)
      · exact .inl (eq_of_text_eq hp hq h)
  · intro h
    rcases h with rfl | ⟨hp, hq⟩
    · rfl
    · rw [text_of_isNowhere hp, text_of_isNowhere hq]

/-- A file may be called like what stands for no file. -/
example : (Position.mk "<none>" 0 0).text = "<none>:0:0" := by
  decide

end CodegenRegistry.Position
