import CodegenRegistry.Toml.Token
import Mathlib.Data.List.Forall2
/-!
# Scanning of lines

A word ends where something stands that cannot belong to it, so what is read of a text depends on
what follows. `Reads` says how a text is read of which this is known. Main statement: lines that are
read one by one are read as one document, whichever way they end.
-/

namespace CodegenRegistry.Toml

/-- A text that is a word if nothing follows that could belong to it. -/
def IsWord (s : String) : Prop :=
  s ≠ "" ∧ ∀ c ∈ s.toList, isWordChar c

instance (s : String) : Decidable (IsWord s) :=
  decidable_of_iff (s ≠ "" ∧ s.toList.all isWordChar) (by simp [IsWord])

/-- A text that no word in front of it can take anything from. -/
def Delimited (cs : List Char) : Prop :=
  ∀ c ∈ cs.head?, ¬ isWordChar c

@[simp] theorem delimited_nil : Delimited [] := by
  simp [Delimited]

@[simp] theorem delimited_cons {c : Char} {cs : List Char} :
    Delimited (c :: cs) ↔ ¬ isWordChar c := by
  simp [Delimited]

theorem Delimited.append {cs ds : List Char} (h : Delimited cs) (h' : Delimited ds) :
    Delimited (cs ++ ds) := by
  cases cs with
  | nil => exact h'
  | cons c cs => exact h

/-- The tokens that a text without quotes and comments is read as. -/
inductive Reads : List Char → List Token → Prop
  | nil : Reads [] []
  | char {c : Char} {cs : List Char} {ts us : List Token}
      (hstep : Mode.stepBetween c = some (.between, ts)) (hrest : Reads cs us) :
      Reads (c :: cs) (ts ++ us)
  | word {w : String} {cs : List Char} {us : List Token} (hword : IsWord w)
      (hend : Delimited cs) (hrest : Reads cs us) : Reads (w.toList ++ cs) (.word w :: us)

namespace Mode

def rest? (m : Mode) (cs : List Char) : Option (List Token) :=
  (m.run cs).bind fun (m', ts) => m'.finish.map (ts ++ ·)

theorem rest?_cons (m : Mode) (c : Char) (cs : List Char) :
    m.rest? (c :: cs) = (m.step c).bind fun (m', ts) => (m'.rest? cs).map (ts ++ ·) := by
  unfold rest?
  rw [run]
  cases m.step c with
  | none => rfl
  | some p =>
      simp only [Option.bind_some]
      cases p.1.run cs with
      | none => rfl
      | some q => simp [Option.map_map, Function.comp_def]

theorem rest?_cons_of_step {m m' : Mode} {c : Char} {ts : List Token}
    (h : m.step c = some (m', ts)) (cs : List Char) :
    m.rest? (c :: cs) = (m'.rest? cs).map (ts ++ ·) := by
  rw [rest?_cons, h, Option.bind_some]

theorem stepBetween_of_isWordChar {c : Char} (h : isWordChar c) :
    stepBetween c = some (.word [c], []) := by
  have hne : ∀ d, ¬ isWordChar d → c ≠ d := by
    rintro d hd rfl
    exact hd h
  unfold stepBetween
  rw [if_neg (not_or.2 ⟨hne _ (by decide), hne _ (by decide)⟩)]
  iterate 11 rw [if_neg (hne _ (by decide))]
  exact if_pos h

theorem rest?_word (w : List Char) (hword : ∀ c ∈ w, isWordChar c) (read cs : List Char) :
    (word read).rest? (w ++ cs) = (word (w.reverse ++ read)).rest? cs := by
  induction w generalizing read with
  | nil => rfl
  | cons c w ih =>
      obtain ⟨hc, hw⟩ := List.forall_mem_cons.1 hword
      have hstep : (word read).step c = some (word (c :: read), []) := if_pos hc
      rw [List.cons_append, rest?_cons_of_step hstep, ih hw, List.reverse_cons,
        List.append_assoc]
      exact Option.map_id'

theorem rest?_end {read cs : List Char} (hend : Delimited cs) :
    (word read).rest? cs =
      (between.rest? cs).map (.word (String.ofList read.reverse) :: ·) := by
  cases cs with
  | nil => rfl
  | cons c cs =>
      have hstep : (word read).step c = (stepBetween c).map
          fun (m, ts) => (m, .word (String.ofList read.reverse) :: ts) :=
        if_neg (delimited_cons.1 hend)
      rw [rest?_cons, rest?_cons, hstep]
      change _ = ((stepBetween c).bind _).map _
      cases stepBetween c with
      | none => rfl
      | some p => simp [Option.map_map, Function.comp_def]

end Mode

namespace Reads

variable {cs ds : List Char} {ts us : List Token}

/-- What follows a text is read on its own if no word is cut. -/
theorem rest?_append (h : Reads cs ts) (hend : Delimited ds) :
    Mode.between.rest? (cs ++ ds) = (Mode.between.rest? ds).map (ts ++ ·) := by
  induction h with
  | nil => exact Option.map_id'.symm
  | char hstep _ ih =>
      have hstep' : Mode.between.step _ = some (.between, _) := hstep
      rw [List.cons_append, Mode.rest?_cons_of_step hstep', ih, Option.map_map]
      simp only [Function.comp_def, List.append_assoc]
  | @word w cs us hword hcs _ ih =>
      have hne : w.toList ≠ [] := by simpa using hword.1
      obtain ⟨c, w', hw⟩ := List.exists_cons_of_ne_nil hne
      have hchars := hword.2
      rw [hw] at hchars
      obtain ⟨hc, hword'⟩ := List.forall_mem_cons.1 hchars
      have hstep : Mode.between.step c = some (.word [c], []) :=
        Mode.stepBetween_of_isWordChar hc
      have hread : String.ofList (w'.reverse ++ [c]).reverse = w := by
        rw [List.reverse_append, List.reverse_reverse, List.reverse_singleton,
          List.singleton_append, ← hw, String.ofList_toList]
      have hrest : Delimited (cs ++ ds) := hcs.append hend
      rw [hw, List.append_assoc, List.cons_append, Mode.rest?_cons_of_step hstep,
        Mode.rest?_word w' hword', Mode.rest?_end hrest, ih, hread, Option.map_map, Option.map_map]
      rfl

theorem rest?_eq (h : Reads cs ts) : Mode.between.rest? cs = some ts := by
  have hnil : Mode.between.rest? [] = some [] := rfl
  have happend := h.rest?_append delimited_nil
  rwa [List.append_nil, hnil, Option.map_some, List.append_nil] at happend

theorem append (h : Reads cs ts) (h' : Reads ds us) (hend : Delimited ds) :
    Reads (cs ++ ds) (ts ++ us) := by
  induction h with
  | nil => exact h'
  | char hstep _ ih =>
      rw [List.append_assoc]
      exact .char hstep ih
  | @word w cs us' hword hcs _ ih =>
      rw [List.append_assoc]
      exact .word hword (hcs.append hend) ih

theorem ofWord {w : String} (h : IsWord w) : Reads w.toList [.word w] := by
  simpa using Reads.word h delimited_nil .nil

theorem blank (h : Reads cs ts) : Reads (' ' :: cs) ts := by
  have hstep : Mode.stepBetween ' ' = some (.between, []) := rfl
  exact .char hstep h

theorem equals (h : Reads cs ts) : Reads (' ' :: '=' :: ' ' :: cs) (.equals :: ts) := by
  have hstep : Mode.stepBetween '=' = some (.between, [.equals]) := rfl
  exact .blank (.char hstep h.blank)

theorem ne_of_mem (h : Reads cs ts) : ∀ c ∈ cs, c ≠ '\r' ∧ c ≠ '\ufeff' := by
  induction h with
  | nil => simp
  | char hstep _ ih =>
      refine List.forall_mem_cons.2 ⟨⟨?_, ?_⟩, ih⟩
      · rintro rfl
        cases hstep
      · rintro rfl
        cases hstep
  | word hword _ _ ih =>
      refine List.forall_mem_append.2 ⟨?_, ih⟩
      intro c hc
      constructor
      · rintro rfl
        exact absurd (hword.2 _ hc) (by decide)
      · rintro rfl
        exact absurd (hword.2 _ hc) (by decide)

theorem intercalate {lines : List (List Char)} {tss : List (List Token)}
    (h : List.Forall₂ Reads lines tss) :
    Reads (['\n'].intercalate lines) ([Token.newline].intercalate tss) := by
  induction h with
  | nil => exact .nil
  | @cons line ts lines tss hline hlines ih =>
      cases hlines with
      | nil => simpa using hline
      | cons =>
          rw [List.intercalate_cons_cons, List.intercalate_cons_cons, List.append_assoc,
            List.append_assoc]
          have hend : Mode.stepBetween '\n' = some (.between, [.newline]) := rfl
          exact hline.append (.char hend ih) (delimited_cons.2 (by decide))

theorem ne_of_mem_lines {lines : List (List Char)} {tss : List (List Token)}
    (h : List.Forall₂ Reads lines tss) : ∀ line ∈ lines, '\r' ∉ line ∧ '\ufeff' ∉ line := by
  induction h with
  | nil => simp
  | cons hline _ ih =>
      refine List.forall_mem_cons.2 ⟨⟨?_, ?_⟩, ih⟩
      · exact fun hc => (hline.ne_of_mem _ hc).1 rfl
      · exact fun hc => (hline.ne_of_mem _ hc).2 rfl

end Reads

inductive LineEnd
  | lineFeed
  | carriageReturn

def LineEnd.text : LineEnd → String
  | lineFeed => "\n"
  | carriageReturn => "\r\n"

namespace Token

theorem lineFeeds_append {cs : List Char} (h : '\r' ∉ cs) (ds : List Char) :
    lineFeeds (cs ++ ds) = (lineFeeds ds).map (cs ++ ·) := by
  induction cs with
  | nil => exact Option.map_id'.symm
  | cons c cs ih =>
      obtain ⟨hc, hcs⟩ := not_or.1 (mt List.mem_cons.2 h)
      have hnot : ∀ rest, c = '\r' → cs ++ ds = '\n' :: rest → False :=
        fun _ heq _ => hc heq.symm
      rw [List.cons_append, lineFeeds.eq_3 c (cs ++ ds) hnot, if_neg (Ne.symm hc), ih hcs,
        Option.map_map]
      rfl

theorem lineFeeds_end (e : LineEnd) (cs : List Char) :
    lineFeeds (e.text.toList ++ cs) = (lineFeeds cs).map ('\n' :: ·) := by
  cases e <;> rfl

theorem lineFeeds_intercalate (e : LineEnd) {lines : List (List Char)}
    (h : ∀ line ∈ lines, '\r' ∉ line) :
    lineFeeds (e.text.toList.intercalate lines) = some (['\n'].intercalate lines) := by
  induction lines with
  | nil => rfl
  | cons line lines ih =>
      obtain ⟨hline, hlines⟩ := List.forall_mem_cons.1 h
      cases lines with
      | nil => simpa [lineFeeds] using lineFeeds_append hline []
      | cons line' lines =>
          rw [List.intercalate_cons_cons, List.intercalate_cons_cons, List.append_assoc,
            List.append_assoc, lineFeeds_append hline, lineFeeds_end, ih hlines]
          rfl

theorem dropMark_cons {c : Char} (hc : c ≠ '\ufeff') (cs : List Char) :
    dropMark (c :: cs) = c :: cs := by
  unfold dropMark
  split
  · rename_i heq
    exact absurd (List.cons.inj heq).1 hc
  · rfl

theorem dropMark_intercalate (e : LineEnd) {lines : List (List Char)}
    (h : ∀ line ∈ lines, '\ufeff' ∉ line) :
    dropMark (e.text.toList.intercalate lines) = e.text.toList.intercalate lines := by
  cases lines with
  | nil => rfl
  | cons line lines =>
      cases line with
      | nil => cases lines <;> cases e <;> rfl
      | cons c cs =>
          have hc : c ≠ '\ufeff' := by
            rintro rfl
            exact h _ List.mem_cons_self List.mem_cons_self
          rw [List.intercalate_cons_cons_left]
          exact dropMark_cons hc _

/-- Lines that are read one by one are read as a document. -/
theorem scan_lines (e : LineEnd) {lines : List String} {tss : List (List Token)}
    (h : List.Forall₂ (fun line => Reads line.toList) lines tss) :
    scan (e.text.intercalate lines) = some ([Token.newline].intercalate tss) := by
  have hreads : List.Forall₂ Reads (lines.map String.toList) tss := List.forall₂_map_left_iff.2 h
  have hplain := Reads.ne_of_mem_lines hreads
  rw [scan, String.toList_intercalate,
    dropMark_intercalate e fun line hline => (hplain line hline).2,
    lineFeeds_intercalate e fun line hline => (hplain line hline).1]
  exact (Reads.intercalate hreads).rest?_eq

end Token

end CodegenRegistry.Toml
