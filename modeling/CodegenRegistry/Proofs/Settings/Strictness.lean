import CodegenRegistry.Settings.File
import CodegenRegistry.Proofs.Toml.FirstLine
import Mathlib
/-!
# Settings files are read strictly

A key that is no setting, or a setting that is made twice, is an error whatever else the file says.
Main statement: what becomes of a file when the line of a key is put in front of it.
-/

namespace CodegenRegistry.Settings

open Toml

/-- The root table of a document has an entry under a key. -/
def Sets (key doc : String) : Prop :=
  ∃ es ∈ Document.read? doc, key ∈ es.keys

theorem key_of_apply {s s' : Settings} {key : String} {item : Item}
    (h : s.apply (key, item) = some s') :
    key = "suggestion-cutoff" ∨ key = "seal-on-first-batch" := by
  by_contra hkey
  obtain ⟨hcutoff, hseal⟩ := not_or.1 hkey
  have hnone : s.apply (key, item) = none := by
    simp only [apply, if_neg hcutoff, if_neg hseal]
  cases hnone.symm.trans h

theorem key_of_foldlM_apply {es : Entries} {s s' : Settings} (h : es.foldlM apply s = some s') :
    ∀ key ∈ es.keys, key = "suggestion-cutoff" ∨ key = "seal-on-first-batch" := by
  induction es generalizing s with
  | nil => nofun
  | cons entry es ih =>
      rw [List.foldlM_cons] at h
      obtain ⟨s₁, hentry, hrest⟩ := Option.bind_eq_some_iff.1 h
      exact List.forall_mem_cons.2 ⟨key_of_apply hentry, ih hrest⟩

/-! ## When a file is malformed -/

theorem parse_eq_ok_iff {doc : String} {s : Settings} :
    parse doc = .ok s ↔ (Document.read? doc).bind ofEntries? = some s := by
  unfold parse
  cases (Document.read? doc).bind ofEntries? <;> simp

theorem parse_eq_malformed_iff {doc : String} :
    parse doc = .error .malformed ↔ ∀ s, parse doc ≠ .ok s := by
  unfold parse
  cases (Document.read? doc).bind ofEntries? <;> simp

theorem malformed_of_read?_eq_none {doc : String} (h : Document.read? doc = none) :
    parse doc = .error .malformed := by
  rw [parse, h]
  rfl

/-- A file that is read sets nothing but settings. -/
theorem key_of_parse {doc : String} {s : Settings} (h : parse doc = .ok s) {key : String}
    (hkey : Sets key doc) : key = "suggestion-cutoff" ∨ key = "seal-on-first-batch" := by
  obtain ⟨es, hread, hmem⟩ := hkey
  obtain ⟨es', hread', hes'⟩ := Option.bind_eq_some_iff.1 (parse_eq_ok_iff.1 h)
  obtain rfl : es' = es := Option.some.inj (hread'.symm.trans hread)
  exact key_of_foldlM_apply hes' key hmem

/-! ## A line in front of a file -/

section

variable {key : String} (e : LineEnd) (doc : String)

theorem read?_true (hkey : Key.IsBare key) :
    Document.read? (key ++ " = true" ++ e.text ++ doc) =
      if doc.toList.head? = some '\ufeff' then none
      else (Document.read? doc).bind (Entries.inFront key (.boolean true)) := by
  have htrue : Reads "true".toList [.word "true"] := .ofWord (by decide)
  have hvalue : IsValue [.word "true"] (.boolean true) := isValue_word rfl
  have htable : ∀ origin sub, Item.boolean true ≠ .table origin sub :=
    fun origin sub h => nomatch h
  have hline : key ++ " = true" = key ++ " = " ++ "true" := by
    rw [String.append_assoc]
    rfl
  rw [hline, Document.read?_assign htable hkey htrue hvalue]

theorem eq_cons_of_read?_true (hkey : Key.IsBare key) {es : Entries}
    (h : Document.read? (key ++ " = true" ++ e.text ++ doc) = some es) :
    ∃ rest, Document.read? doc = some rest ∧ key ∉ rest.keys ∧
      es = (key, .boolean true) :: rest := by
  rw [read?_true e doc hkey] at h
  split at h
  · cases h
  · obtain ⟨rest, hrest, hfront⟩ := Option.bind_eq_some_iff.1 h
    unfold Entries.inFront at hfront
    split at hfront
    · cases hfront
    · exact ⟨rest, hrest, ‹_›, (Option.some.inj hfront).symm⟩

theorem parse_true_of_ne (hkey : Key.IsBare key) (hcutoff : key ≠ "suggestion-cutoff")
    (hseal : key ≠ "seal-on-first-batch") :
    parse (key ++ " = true" ++ e.text ++ doc) = .error .malformed := by
  refine parse_eq_malformed_iff.2 fun s hs => ?_
  obtain ⟨es, hread, -⟩ := Option.bind_eq_some_iff.1 (parse_eq_ok_iff.1 hs)
  obtain ⟨rest, -, -, rfl⟩ := eq_cons_of_read?_true e doc hkey hread
  exact (key_of_parse hs ⟨_, hread, List.mem_cons_self⟩).elim hcutoff hseal

theorem parse_true_of_sets (hkey : Key.IsBare key) (h : Sets key doc) :
    parse (key ++ " = true" ++ e.text ++ doc) = .error .malformed := by
  refine malformed_of_read?_eq_none (Option.eq_none_iff_forall_ne_some.2 fun es hes => ?_)
  obtain ⟨rest, hread, hnew, -⟩ := eq_cons_of_read?_true e doc hkey hes
  obtain ⟨rest', hread', hmem⟩ := h
  obtain rfl : rest = rest' := Option.some.inj (hread.symm.trans hread')
  exact hnew hmem

/-- The line of a setting that a file leaves out, with its default, changes nothing. -/
theorem parse_seal_of_not_sets (hmark : doc.toList.head? ≠ some '\ufeff')
    (h : ¬ Sets "seal-on-first-batch" doc) :
    parse ("seal-on-first-batch" ++ " = true" ++ e.text ++ doc) = parse doc := by
  have hread := @read?_true "seal-on-first-batch" e doc (by decide)
  rw [if_neg hmark] at hread
  rw [parse, parse, hread]
  cases hdoc : Document.read? doc with
  | none => rfl
  | some es =>
      have hnew : "seal-on-first-batch" ∉ es.keys := fun hmem => h ⟨es, hdoc, hmem⟩
      have hfront : Entries.inFront "seal-on-first-batch" (.boolean true) es =
          some (("seal-on-first-batch", .boolean true) :: es) := if_neg hnew
      rw [Option.bind_some, hfront]
      rfl

end

/-- Behind the line of a key that is no setting every file is malformed. So is a file that makes a
setting behind another line of it, whether or not it is read alone. A file that leaves it out is
read as before behind the line with its default, unless a byte order mark comes to stand inside. -/
theorem parse_strict (e : LineEnd) (doc : String) :
    (∀ key, Key.IsBare key → key ≠ "suggestion-cutoff" → key ≠ "seal-on-first-batch" →
      parse (key ++ " = true" ++ e.text ++ doc) = .error .malformed) ∧
    (Sets "seal-on-first-batch" doc →
      parse ("seal-on-first-batch = true" ++ e.text ++ doc) = .error .malformed) ∧
    (¬ Sets "seal-on-first-batch" doc → doc.toList.head? ≠ some '\ufeff' →
      parse ("seal-on-first-batch = true" ++ e.text ++ doc) = parse doc) := by
  have hseal : Key.IsBare "seal-on-first-batch" := by decide
  have hline : "seal-on-first-batch = true" = "seal-on-first-batch" ++ " = true" := by decide
  rw [hline]
  exact ⟨fun key hkey hcutoff hne => parse_true_of_ne e doc hkey hcutoff hne,
    fun h => parse_true_of_sets e doc hseal h,
    fun h hmark => parse_seal_of_not_sets e doc hmark h⟩

theorem parse_strict_of_unsealed :
    Key.IsBare "seal-on-first-bach" ∧
    parse ("seal-on-first-bach" ++ " = true" ++ "\n" ++ "seal-on-first-batch = false") =
      .error .malformed ∧
    Sets "seal-on-first-batch" "seal-on-first-batch = false" ∧
    parse ("seal-on-first-batch = true" ++ "\n" ++ "seal-on-first-batch = false") =
      .error .malformed ∧
    ¬ Sets "seal-on-first-batch" "suggestion-cutoff.fixed = 3" ∧
    parse ("seal-on-first-batch = true" ++ "\n" ++ "suggestion-cutoff.fixed = 3") =
      .ok { cutoff := .fixed 3 } := by
  have hbare : Key.IsBare "seal-on-first-bach" := by decide
  have hsealing : Holds ["seal-on-first-batch = false"]
      [.assign ["seal-on-first-batch"] (.boolean false)] := by
    have htext : "seal-on-first-batch = false" =
        Key.text ["seal-on-first-batch"] ++ " = " ++ "false" := by decide
    rw [htext]
    exact .assign (by decide) (.ofWord (by decide)) (isValue_word rfl)
  have hcutoff : Holds ["suggestion-cutoff.fixed = 3"]
      [.assign ["suggestion-cutoff", "fixed"] (.integer 3)] := by
    have htext : "suggestion-cutoff.fixed = 3" =
        Key.text ["suggestion-cutoff", "fixed"] ++ " = " ++ "3" := by decide
    rw [htext]
    exact .assign (by decide) (.ofWord (by decide)) (isValue_word rfl)
  have hread₁ : Document.read? "seal-on-first-batch = false" =
      some [("seal-on-first-batch", .boolean false)] := hsealing.read?_eq .lineFeed
  have hread₂ : Document.read? "suggestion-cutoff.fixed = 3" =
      some [("suggestion-cutoff", .table .dotted [("fixed", .integer 3)])] :=
    hcutoff.read?_eq .lineFeed
  have hsets : Sets "seal-on-first-batch" "seal-on-first-batch = false" :=
    ⟨_, hread₁, by decide⟩
  have hnot : ¬ Sets "seal-on-first-batch" "suggestion-cutoff.fixed = 3" := by
    rintro ⟨es, hes, hmem⟩
    obtain rfl := Option.some.inj (hread₂.symm.trans hes)
    exact absurd hmem (by decide)
  have hparse : parse "suggestion-cutoff.fixed = 3" = .ok { cutoff := .fixed 3 } :=
    parse_eq_ok_iff.2 (by rw [hread₂]; rfl)
  obtain ⟨hbad, hagain, -⟩ := parse_strict .lineFeed "seal-on-first-batch = false"
  obtain ⟨-, -, hsame⟩ := parse_strict .lineFeed "suggestion-cutoff.fixed = 3"
  exact ⟨hbare, hbad _ hbare (by decide) (by decide), hsets, hagain hsets, hnot,
    (hsame hnot (by decide)).trans hparse⟩

end CodegenRegistry.Settings
