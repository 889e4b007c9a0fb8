import CodegenRegistry.Proofs.Toml.Lines
/-!
# A first line in front of a document

A value that is no table can neither be removed nor be changed by what follows it. Main statement:
a document behind the assignment of such a value is read as it is alone, with the value in front of
its entries, and is refused if it has an entry under the same key.
-/

namespace CodegenRegistry.Toml

namespace Entries

/-! ## Changes under one key -/

def keys (es : Entries) : List String :=
  es.map Prod.fst

/-- Changes what stands under one key: something is made of nothing, and something else of a table.
A value that is no table is refused. -/
def alter (key : String) (new : Option Item) (change : Origin → Entries → Option Item)
    (es : Entries) : Option Entries :=
  match es.lookup key with
  | none => new.map fun item => es ++ [(key, item)]
  | some (.table origin sub) => (change origin sub).map fun item => replace key item es
  | some _ => none

variable {key key' : String} {item : Item} {es : Entries}

/-! Each operation on a table changes what stands under the first key of its path. -/

theorem assign_singleton (key : String) (item : Item) :
    assign [key] item = alter key (some item) fun _ _ => none := by
  funext es
  rw [assign, alter]
  cases es.lookup key with
  | none => rfl
  | some old => cases old <;> rfl

theorem assign_cons_cons (key key' : String) (path : List String) (item : Item) :
    assign (key :: key' :: path) item =
      alter key ((assign (key' :: path) item []).map (.table .dotted)) fun origin sub =>
        if origin = .dotted ∨ origin = .implied then
          (assign (key' :: path) item sub).map (.table origin)
        else none := by
  funext es
  rw [assign.eq_3 _ _ _ _ (List.cons_ne_nil _ _), alter]
  cases es.lookup key with
  | none => simp only [Option.map_map, Function.comp_def]
  | some old =>
      cases old <;> try rfl
      simp only
      split
      · simp only [Option.map_map, Function.comp_def]
      · rfl

theorem define_singleton (key : String) :
    define [key] = alter key (some (.table .header [])) fun
      | .implied, sub => some (.table .header sub)
      | _, _ => none := by
  funext es
  rw [define, alter]
  cases es.lookup key with
  | none => rfl
  | some old =>
      rcases old with _ | _ | _ | _ | ⟨origin, sub⟩ <;> try rfl
      cases origin <;> rfl

theorem define_cons_cons (key key' : String) (path : List String) :
    define (key :: key' :: path) =
      alter key ((define (key' :: path) []).map (.table .implied)) fun origin sub =>
        if origin = .braces then none
        else (define (key' :: path) sub).map (.table origin) := by
  funext es
  rw [define.eq_3 _ _ _ (List.cons_ne_nil _ _), alter]
  cases es.lookup key with
  | none => simp only [Option.map_map, Function.comp_def]
  | some old =>
      cases old <;> try rfl
      simp only
      split
      · rfl
      · simp only [Option.map_map, Function.comp_def]

theorem within_cons (key : String) (path : List String) (f : Entries → Option Entries) :
    within (key :: path) f =
      alter key none fun origin sub => (within path f sub).map (.table origin) := by
  funext es
  rw [within, alter]
  cases es.lookup key with
  | none => rfl
  | some old =>
      cases old <;> try rfl
      simp only [Option.map_map, Function.comp_def]

/-! A change keeps the keys that there are. Of a value in front of the table it makes nothing, or it
leaves it there. -/

variable {new : Option Item} {change : Origin → Entries → Option Item} {es' : Entries}

theorem keys_replace : (replace key item es).keys = es.keys := by
  unfold keys replace
  rw [List.map_map]
  refine List.map_congr_left fun e _ => ?_
  by_cases he : e.1 = key
  · simp [he]
  · simp [he]

theorem mem_keys_of_alter (h : alter key new change es = some es') :
    key' ∈ es'.keys ↔ key' = key ∨ key' ∈ es.keys := by
  unfold alter at h
  split at h
  · obtain ⟨item, -, rfl⟩ := Option.map_eq_some_iff.1 h
    simp [keys, or_comm]
  · rename_i hlookup
    have hkey : key ∈ es.keys := by
      have hsome := Option.isSome_of_eq_some hlookup
      simpa [keys] using hsome
    obtain ⟨item, -, rfl⟩ := Option.map_eq_some_iff.1 h
    rw [keys_replace]
    exact ⟨.inr, fun h => h.elim (fun heq => heq ▸ hkey) id⟩
  · cases h

theorem alter_cons_of_ne (h : key' ≠ key) :
    alter key new change ((key', item) :: es) =
      (alter key new change es).map ((key', item) :: ·) := by
  have hlookup : List.lookup key ((key', item) :: es) = es.lookup key := by
    rw [List.lookup_cons, beq_false_of_ne h.symm]
  have hreplace : ∀ item', replace key item' ((key', item) :: es) =
      (key', item) :: replace key item' es := fun item' => by simp [replace, h]
  unfold alter
  rw [hlookup]
  split
  · simp only [List.cons_append, Option.map_map, Function.comp_def]
  · simp only [hreplace, Option.map_map, Function.comp_def]
  · rfl

/-! ## A value in front -/

def inFront (key : String) (item : Item) (es : Entries) : Option Entries :=
  if key ∈ es.keys then none else some ((key, item) :: es)

/-- Says of an operation that it makes no difference whether a value is put in front before it or
after it. -/
def Respects (key : String) (item : Item) (f : Entries → Option Entries) : Prop :=
  ∀ es, (inFront key item es).bind f = (f es).bind (inFront key item)

theorem respects_none : Respects key item fun _ => none := by
  intro es
  cases inFront key item es <;> rfl

section

variable (hitem : ∀ origin sub, item ≠ .table origin sub)
include hitem

theorem alter_cons_self : alter key new change ((key, item) :: es) = none := by
  rw [alter, List.lookup_cons_self]
  cases item <;> first | rfl | exact absurd rfl (hitem _ _)

/-- A change under one key respects a value: under the key of the value it fails before as after,
and elsewhere the keys that are new are the same. -/
theorem respects_alter (key' : String) (new : Option Item)
    (change : Origin → Entries → Option Item) : Respects key item (alter key' new change) := by
  intro es
  by_cases hkey : key = key'
  · subst hkey
    have hafter : (alter key new change es).bind (inFront key item) = none := by
      cases h : alter key new change es with
      | none => rfl
      | some es' => exact if_pos ((mem_keys_of_alter h).2 (.inl rfl))
    have hbefore : (inFront key item es).bind (alter key new change) = none := by
      unfold inFront
      split
      · rfl
      · exact alter_cons_self hitem
    rw [hbefore, hafter]
  · have hin : ∀ es', alter key' new change es = some es' → (key ∈ es'.keys ↔ key ∈ es.keys) :=
      fun es' h => (mem_keys_of_alter h).trans (or_iff_right hkey)
    unfold inFront
    split
    · rename_i hmem
      cases h : alter key' new change es with
      | none => rfl
      | some es' => exact (if_pos ((hin es' h).2 hmem)).symm
    · rename_i hnew
      rw [Option.bind_some, alter_cons_of_ne hkey]
      cases h : alter key' new change es with
      | none => rfl
      | some es' => exact (if_neg (mt (hin es' h).1 hnew)).symm

theorem respects_assign (path : List String) (new : Item) :
    Respects key item (assign path new) := by
  cases path with
  | nil => exact respects_none
  | cons k path =>
      cases path with
      | nil =>
          rw [assign_singleton]
          exact respects_alter hitem _ _ _
      | cons k' path =>
          rw [assign_cons_cons]
          exact respects_alter hitem _ _ _

theorem respects_define (path : List String) : Respects key item (define path) := by
  cases path with
  | nil => exact respects_none
  | cons k path =>
      cases path with
      | nil =>
          rw [define_singleton]
          exact respects_alter hitem _ _ _
      | cons k' path =>
          rw [define_cons_cons]
          exact respects_alter hitem _ _ _

theorem respects_within {f : Entries → Option Entries} (hf : Respects key item f)
    (path : List String) : Respects key item (within path f) := by
  cases path with
  | nil => exact hf
  | cons k path =>
      rw [within_cons]
      exact respects_alter hitem _ _ _

end

end Entries

/-! ## A text behind a line -/

namespace Token

/-- The tokens of what stands behind a line end. A byte order mark is out of place there. -/
def scanBehind (s : String) : Option (List Token) :=
  (lineFeeds s.toList).bind Mode.between.rest?

theorem scanBehind_eq (s : String) :
    scanBehind s = if s.toList.head? = some '\ufeff' then none else scan s := by
  unfold scanBehind
  split
  · rename_i hmark
    obtain ⟨cs, hcs⟩ := List.head?_eq_some_iff.1 hmark
    have hfeeds : lineFeeds ('\ufeff' :: cs) = (lineFeeds cs).map ('\ufeff' :: ·) :=
      @lineFeeds_append ['\ufeff'] (by decide) cs
    rw [hcs, hfeeds]
    cases lineFeeds cs <;> rfl
  · rename_i hmark
    have hdrop : dropMark s.toList = s.toList := by
      cases hs : s.toList with
      | nil => rfl
      | cons c cs =>
          rw [hs] at hmark
          exact dropMark_cons (by simpa using hmark) cs
    rw [scan, hdrop]
    rfl

theorem scan_line {line : String} {ts : List Token} (h : Reads line.toList ts) (e : LineEnd)
    (s : String) :
    scan (line ++ e.text ++ s) = (scanBehind s).map (ts ++ .newline :: ·) := by
  have hplain := h.ne_of_mem
  have hfeed : Mode.between.step '\n' = some (.between, [.newline]) := rfl
  have hdrop : dropMark (line ++ e.text ++ s).toList = (line ++ e.text ++ s).toList := by
    rw [String.toList_append, String.toList_append]
    cases hline : line.toList with
    | nil => cases e <;> rfl
    | cons c cs => exact dropMark_cons (hplain c (hline ▸ List.mem_cons_self)).2 _
  have hfeeds : lineFeeds (line ++ e.text ++ s).toList =
      (lineFeeds s.toList).map (line.toList ++ '\n' :: ·) := by
    rw [String.toList_append, String.toList_append, List.append_assoc,
      lineFeeds_append (fun hr => (hplain _ hr).1 rfl), lineFeeds_end, Option.map_map]
    rfl
  have hrest : ∀ cs, Mode.between.rest? (line.toList ++ '\n' :: cs) =
      (Mode.between.rest? cs).map (ts ++ .newline :: ·) := by
    intro cs
    rw [h.rest?_append (delimited_cons.2 (by decide)), Mode.rest?_cons_of_step hfeed,
      Option.map_map]
    rfl
  rw [scan, hdrop, hfeeds, scanBehind, Option.bind_map, Option.map_bind]
  exact congrArg _ (funext hrest)

end Token

namespace Document

variable {key : String} {item : Item}

def inFront (key : String) (item : Item) (d : Document) : Option Document :=
  (Entries.inFront key item d.entries).map fun es => { d with entries := es }

theorem map_entries_inFront (d : Document) :
    (inFront key item d).map entries = Entries.inFront key item d.entries := by
  rw [inFront, Option.map_map]
  exact Option.map_id'

section

variable (hitem : ∀ origin sub, item ≠ .table origin sub)
include hitem

theorem inFront_add (d : Document) (s : Statement) :
    (inFront key item d).bind (fun d => d.add s) = (d.add s).bind (inFront key item) := by
  cases s with
  | header path =>
      have hpath : Entries.Respects key item (Entries.define path) :=
        Entries.respects_define hitem path
      calc (inFront key item d).bind (fun d => d.add (.header path))
          = ((Entries.inFront key item d.entries).bind (Entries.define path)).map
              (⟨path, ·⟩) := by rw [inFront, Option.bind_map, Option.map_bind]; rfl
        _ = ((d.entries.define path).bind (Entries.inFront key item)).map (⟨path, ·⟩) := by
            rw [hpath d.entries]
        _ = (d.add (.header path)).bind (inFront key item) := by
            rw [add, Option.bind_map, Option.map_bind]; rfl
  | assign path new =>
      have hpath : Entries.Respects key item (Entries.within d.current (Entries.assign path new)) :=
        Entries.respects_within hitem (Entries.respects_assign hitem path new) d.current
      calc (inFront key item d).bind (fun d => d.add (.assign path new))
          = ((Entries.inFront key item d.entries).bind
              (Entries.within d.current (Entries.assign path new))).map (⟨d.current, ·⟩) := by
            rw [inFront, Option.bind_map, Option.map_bind]; rfl
        _ = ((d.entries.within d.current (Entries.assign path new)).bind
              (Entries.inFront key item)).map (⟨d.current, ·⟩) := by rw [hpath d.entries]
        _ = (d.add (.assign path new)).bind (inFront key item) := by
            rw [add, Option.bind_map, Option.map_bind]; rfl

theorem inFront_foldlM_add (d : Document) (ss : List Statement) :
    (inFront key item d).bind (fun d => ss.foldlM add d) =
      (ss.foldlM add d).bind (inFront key item) := by
  induction ss generalizing d with
  | nil => exact Option.bind_fun_some _
  | cons s ss ih =>
      calc (inFront key item d).bind (fun d => (s :: ss).foldlM add d)
          = ((inFront key item d).bind (fun d => d.add s)).bind fun d => ss.foldlM add d :=
            (Option.bind_assoc _ _ _).symm
        _ = ((d.add s).bind (inFront key item)).bind fun d => ss.foldlM add d := by
            rw [inFront_add hitem]
        _ = (d.add s).bind fun d => (ss.foldlM add d).bind (inFront key item) := by
            rw [Option.bind_assoc]; exact congrArg _ (funext ih)
        _ = ((s :: ss).foldlM add d).bind (inFront key item) := (Option.bind_assoc _ _ _).symm

theorem ofStatements_assign (ss : List Statement) :
    ofStatements (.assign [key] item :: ss) = (ofStatements ss).bind (inFront key item) :=
  inFront_foldlM_add hitem {} ss

/-- A document behind the assignment of a value that is no table is read as it is alone, with the
value in front. It is refused if it has the key itself. -/
theorem read?_assign {value : String} {ts : List Token} (hkey : Key.IsBare key)
    (hreads : Reads value.toList ts) (hvalue : IsValue ts item) (e : LineEnd) (s : String) :
    read? (key ++ " = " ++ value ++ e.text ++ s) =
      if s.toList.head? = some '\ufeff' then none
      else (read? s).bind (Entries.inFront key item) := by
  have hpath : Key.IsBarePath [key] := ⟨List.cons_ne_nil _ _, by simpa using hkey⟩
  have htext : Key.text [key] = key := by
    apply String.toList_inj.1
    simp [Key.text]
  have hline := reads_assign hpath hreads
  rw [htext] at hline
  have hall : ∀ rest, Statement.all? (Key.tokens [key] ++ .equals :: ts ++ .newline :: rest) =
      (Statement.all? rest).map (.assign [key] item :: ·) :=
    fun rest => Statement.all?_of_first?_newline (isStatement_assign hpath hvalue _)
  rw [read?, Token.scan_line hline, Token.scanBehind_eq]
  split
  · rfl
  · rw [read?]
    cases Token.scan s with
    | none => rfl
    | some tokens =>
        simp only [Option.map_some, Option.bind_some, hall]
        cases Statement.all? tokens with
        | none => rfl
        | some ss =>
            simp only [Option.map_some, Option.bind_some, ofStatements_assign hitem,
              Option.map_bind, Option.bind_map, Function.comp_def, map_entries_inFront]

end

end Document

end CodegenRegistry.Toml
