import CodegenRegistry.Settings.File
import CodegenRegistry.Proofs.Toml.Lines
import CodegenRegistry.Proofs.Toml.Numerals
import Mathlib
/-!
# Layouts of a settings file

A fixed cutoff may be written between braces, behind a dotted key or under a header. Main statement:
a file says the same in every layout, and a setting that it leaves out keeps its default.
-/

namespace CodegenRegistry.Settings

open Toml

inductive CutoffForm
  | braces
  | dotted
  | header
deriving DecidableEq

namespace CutoffForm

def lines (n : Int) : CutoffForm → List String
  | braces => ["suggestion-cutoff = \x7b fixed = " ++ toString n ++ " \x7d"]
  | dotted => ["suggestion-cutoff.fixed = " ++ toString n]
  | header => ["[suggestion-cutoff]", "fixed = " ++ toString n]

def statements (n : Int) : CutoffForm → List Statement
  | braces => [.assign ["suggestion-cutoff"] (.table .braces [("fixed", .integer n)])]
  | dotted => [.assign ["suggestion-cutoff", "fixed"] (.integer n)]
  | header => [.header ["suggestion-cutoff"], .assign ["fixed"] (.integer n)]

def origin : CutoffForm → Origin
  | braces => .braces
  | dotted => .dotted
  | header => .header

def entry (form : CutoffForm) (n : Int) : String × Item :=
  ("suggestion-cutoff", .table form.origin [("fixed", .integer n)])

theorem holds_lines (form : CutoffForm) (n : Int) : Holds (form.lines n) (form.statements n) := by
  have hword : IsWord (toString n) := Number.isWord_toString n
  have hnumeral : Reads (toString n).toList [.word (toString n)] := .ofWord hword
  have hvalue := isValue_word (Item.ofWord?_toString n)
  have hcutoff : Key.IsBarePath ["suggestion-cutoff"] := by decide
  have hfixed : Key.IsBarePath ["fixed"] := by decide
  cases form with
  | braces =>
      have hkey : Key.IsBare "fixed" := by decide
      have htext : "suggestion-cutoff = \x7b fixed = " ++ toString n ++ " \x7d" =
          Key.text ["suggestion-cutoff"] ++ " = " ++ Item.bracesText "fixed" (toString n) := by
        apply String.toList_inj.1
        simp [Key.text, Item.bracesText]
      rw [lines, htext]
      exact .assign hcutoff (Item.reads_bracesText hkey.1 hword)
        (isValue_braces hkey (Item.ofWord?_toString n))
  | dotted =>
      have hpath : Key.IsBarePath ["suggestion-cutoff", "fixed"] := by decide
      exact .assign hpath hnumeral hvalue
  | header => exact (Holds.header hcutoff).append (.assign hfixed hnumeral hvalue)

end CutoffForm

def sealLine (b : Bool) : String :=
  "seal-on-first-batch = " ++ toString b

def sealStatement (b : Bool) : Statement :=
  .assign ["seal-on-first-batch"] (.boolean b)

def sealEntry (b : Bool) : String × Item :=
  ("seal-on-first-batch", .boolean b)

theorem holds_sealLine (b : Bool) : Holds [sealLine b] [sealStatement b] := by
  have hword : IsWord (toString b) := by cases b <;> decide
  have hvalue : Item.ofWord? (toString b) = some (.boolean b) := by cases b <;> rfl
  have hpath : Key.IsBarePath ["seal-on-first-batch"] := by decide
  exact .assign hpath (.ofWord hword) (isValue_word hvalue)

/-- How the two settings are written. What comes after a header belongs to its table, so a header
comes last. -/
structure Layout where
  form : CutoffForm
  cutoffLast : Bool
  header_last : form = .header → cutoffLast = true

namespace Layout

variable (layout : Layout)

def arrange {α : Type} (cutoff : Int → List α) (sealing : Bool → List α) (n? : Option Int)
    (b? : Option Bool) : List α :=
  if layout.cutoffLast then b?.toList.flatMap sealing ++ n?.toList.flatMap cutoff
  else n?.toList.flatMap cutoff ++ b?.toList.flatMap sealing

def lines (n? : Option Int) (b? : Option Bool) : List String :=
  layout.arrange layout.form.lines (fun b => [sealLine b]) n? b?

def statements : Option Int → Option Bool → List Statement :=
  layout.arrange layout.form.statements (fun b => [sealStatement b])

def entries : Option Int → Option Bool → Entries :=
  layout.arrange (fun n => [layout.form.entry n]) (fun b => [sealEntry b])

/-- The text of a settings file. Any number of line ends may follow its last line. -/
def text (e : LineEnd) (blanks : Nat) (n? : Option Int) (b? : Option Bool) : String :=
  e.text.intercalate (layout.lines n? b? ++ List.replicate blanks "")

theorem holds_lines (n? : Option Int) (b? : Option Bool) :
    Holds (layout.lines n? b?) (layout.statements n? b?) := by
  have hcutoff := Holds.option layout.form.holds_lines n?
  have hseal := Holds.option holds_sealLine b?
  unfold lines statements arrange
  split
  · exact hseal.append hcutoff
  · exact hcutoff.append hseal

theorem ofStatements_statements (n? : Option Int) (b? : Option Bool) :
    (Document.ofStatements (layout.statements n? b?)).map Document.entries =
      some (layout.entries n? b?) := by
  obtain ⟨form, cutoffLast, hlast⟩ := layout
  cases cutoffLast with
  | true => cases n? <;> cases b? <;> cases form <;> rfl
  | false =>
      have hform : form ≠ .header := fun h => absurd (hlast h) Bool.false_ne_true
      cases n? <;> cases b? <;> cases form <;> first | rfl | contradiction

theorem read?_text (e : LineEnd) (blanks : Nat) (n? : Option Int) (b? : Option Bool) :
    Document.read? (layout.text e blanks n? b?) = some (layout.entries n? b?) := by
  have hholds := (layout.holds_lines n? b?).append (.blanks blanks)
  rw [text, hholds.read?_eq e, List.append_nil, ofStatements_statements]

end Layout

/-! ## What the entries set -/

theorem word?_number (name : String) (n : Int) :
    Choice.word? ⟨name, .number n⟩ = if 0 ≤ n ∧ n ≤ 2 ^ 64 - 1 then some n.toNat else none := by
  cases n with
  | ofNat n =>
      have hrange : n < UInt64.size ↔ 0 ≤ (n : Int) ∧ (n : Int) ≤ 2 ^ 64 - 1 := by
        have hsize : UInt64.size = 2 ^ 64 := rfl
        omega
      simp only [Choice.word?, hrange, Int.ofNat_eq_natCast, Int.toNat_natCast]
  | negSucc n => rfl

theorem apply_entry (s : Settings) (form : CutoffForm) (n : Int) :
    s.apply (form.entry n) =
      if 0 ≤ n ∧ n ≤ 2 ^ 64 - 1 then some { s with cutoff := .fixed n.toNat } else none := by
  have hchoice : (form.entry n).2.choice? = some ⟨"fixed", .number n⟩ := rfl
  have hcutoff : Cutoff.ofChoice? ⟨"fixed", .number n⟩ =
      (Choice.word? ⟨"fixed", .number n⟩).map .fixed := rfl
  change ((form.entry n).2.choice?.bind Cutoff.ofChoice?).map _ = _
  rw [hchoice, Option.bind_some, hcutoff, word?_number]
  split <;> rfl

theorem foldlM_apply_entry (s : Settings) (form : CutoffForm) (n? : Option Int) :
    (n?.toList.flatMap fun n => [form.entry n]).foldlM apply s =
      if ∀ n ∈ n?, 0 ≤ n ∧ n ≤ 2 ^ 64 - 1 then
        some { s with cutoff := (n?.map fun n => .fixed n.toNat).getD s.cutoff }
      else none := by
  cases n? with
  | none => rfl
  | some n =>
      simp only [Option.toList_some, List.flatMap_singleton, List.foldlM_cons, List.foldlM_nil,
        apply_entry, Option.mem_def, Option.some.injEq, forall_eq']
      split <;> rfl

theorem foldlM_apply_sealEntry (s : Settings) (b? : Option Bool) :
    (b?.toList.flatMap fun b => [sealEntry b]).foldlM apply s =
      some { s with sealOnFirstBatch := b?.getD s.sealOnFirstBatch } := by
  cases b? <;> rfl

theorem ofEntries?_entries (layout : Layout) (n? : Option Int) (b? : Option Bool) :
    ofEntries? (layout.entries n? b?) =
      if ∀ n ∈ n?, 0 ≤ n ∧ n ≤ 2 ^ 64 - 1 then
        some { cutoff := (n?.map fun n => .fixed n.toNat).getD ({} : Settings).cutoff,
               sealOnFirstBatch := b?.getD ({} : Settings).sealOnFirstBatch }
      else none := by
  unfold ofEntries? Layout.entries Layout.arrange
  split
  · rw [List.foldlM_append, foldlM_apply_sealEntry]
    exact foldlM_apply_entry _ _ _
  · rw [List.foldlM_append, foldlM_apply_entry]
    split
    · exact foldlM_apply_sealEntry _ _
    · rfl

/-- A settings file says the same in every layout. A setting that it leaves out has its default,
and a cutoff that is no unsigned word of 64 bits makes it malformed. -/
theorem parse_layout (layout : Layout) (e : LineEnd) (blanks : Nat) (n? : Option Int)
    (b? : Option Bool) :
    parse (layout.text e blanks n? b?) =
      if ∀ n ∈ n?, 0 ≤ n ∧ n ≤ 2 ^ 64 - 1 then
        .ok { cutoff := (n?.map fun n => .fixed n.toNat).getD ({} : Settings).cutoff,
              sealOnFirstBatch := b?.getD ({} : Settings).sealOnFirstBatch }
      else .error .malformed := by
  rw [parse, layout.read?_text, Option.bind_some, ofEntries?_entries]
  by_cases h : ∀ n ∈ n?, 0 ≤ n ∧ n ≤ 2 ^ 64 - 1
  · rw [if_pos h, if_pos h]
  · rw [if_neg h, if_neg h]

/-- A layout with a header, as it is written. -/
example :
    let layout : Layout := ⟨.header, true, fun _ => rfl⟩
    layout.text .lineFeed 1 (some 3) (some false) =
      "seal-on-first-batch = false\n[suggestion-cutoff]\nfixed = 3\n" := by
  decide

end CodegenRegistry.Settings
