import CodegenRegistry.Toml.Document
import CodegenRegistry.Proofs.Toml.Scanning
/-!
# Lines of a document

A line is blank or holds a statement, and its tokens alone say which. Main statement: a document
made of such lines is read as their statements in order.
-/

namespace CodegenRegistry.Toml

/-! ## Keys -/

namespace Key

theorem path?_of_part? {t : Token} (h : part? t = none) (ts : List Token) :
    path? (t :: ts) = none := by
  rw [path?.eq_def]
  split <;> simp_all

def IsBare (key : String) : Prop :=
  IsWord key ∧ '+' ∉ key.toList

instance (key : String) : Decidable (IsBare key) :=
  inferInstanceAs (Decidable (IsWord key ∧ '+' ∉ key.toList))

theorem part?_of_isBare {key : String} (h : IsBare key) : part? (.word key) = some key :=
  if_neg h.2

structure IsBarePath (path : List String) : Prop where
  ne_nil : path ≠ []
  bare : ∀ key ∈ path, IsBare key

instance (path : List String) : Decidable (IsBarePath path) :=
  decidable_of_iff (path ≠ [] ∧ ∀ key ∈ path, IsBare key)
    ⟨fun h => ⟨h.1, h.2⟩, fun h => ⟨h.ne_nil, h.bare⟩⟩

theorem IsBarePath.tail {key key' : String} {path : List String}
    (h : IsBarePath (key :: key' :: path)) : IsBarePath (key' :: path) :=
  ⟨List.cons_ne_nil _ _, fun k hk => h.bare k (List.mem_cons_of_mem key hk)⟩

def text (path : List String) : String :=
  ".".intercalate path

def tokens (path : List String) : List Token :=
  [Token.dot].intercalate (path.map fun key => [.word key])

theorem tokens_cons_cons (key key' : String) (path : List String) :
    tokens (key :: key' :: path) = .word key :: .dot :: tokens (key' :: path) := rfl

theorem reads_text {path : List String} (h : IsBarePath path) :
    Reads (text path).toList (tokens path) := by
  rw [text, String.toList_intercalate]
  induction path with
  | nil => exact absurd rfl h.ne_nil
  | cons key path ih =>
      have hkey : Reads key.toList [.word key] := .ofWord (h.bare key List.mem_cons_self).1
      cases path with
      | nil =>
          rw [List.map_singleton, List.intercalate_singleton]
          exact hkey
      | cons key' path =>
          have hdot : Mode.stepBetween '.' = some (.between, [.dot]) := rfl
          rw [List.map_cons, List.map_cons, List.intercalate_cons_cons, List.append_assoc]
          exact hkey.append (.char hdot (ih h.tail)) (delimited_cons.2 (by decide))

theorem path?_tokens {path : List String} (h : IsBarePath path) {t : Token} (ht : t ≠ .dot)
    (ts : List Token) : path? (tokens path ++ t :: ts) = some (path, t :: ts) := by
  induction path with
  | nil => exact absurd rfl h.ne_nil
  | cons key path ih =>
      have hkey := part?_of_isBare (h.bare key List.mem_cons_self)
      cases path with
      | nil =>
          have hlast : ∀ rest, t :: ts = .dot :: rest → False :=
            fun rest heq => ht (List.cons.inj heq).1
          change path? (.word key :: t :: ts) = _
          rw [path?.eq_3 _ _ hlast, hkey]
          rfl
      | cons key' path =>
          rw [tokens_cons_cons, List.cons_append, List.cons_append, path?, hkey,
            Option.bind_some, ih h.tail]
          rfl

end Key

/-! ## Values -/

namespace Item

theorem read?_word {w : String} {item : Item} (h : ofWord? w = some item) (rest : List Token) :
    read? (.word w :: rest) = some (item, rest) := by
  rw [read?, List.length_cons, Nat.mul_succ, within?, h]
  rfl

theorem dropNewlines_cons {t : Token} (ht : t ≠ .newline) (ts : List Token) :
    dropNewlines (t :: ts) = t :: ts :=
  List.dropWhile_cons_of_neg (by simpa using ht)

theorem fieldsWithin?_last {key w : String} {item : Item} (hkey : '+' ∉ key.toList)
    (h : ofWord? w = some item) (fuel : Nat) (es : Entries) (rest : List Token) :
    fieldsWithin? (fuel + 2) es (.word key :: .equals :: .word w :: .closeBrace :: rest) =
      (es.assign [key] item).map fun es => (es, rest) := by
  have hpath : Key.path? (.word key :: .equals :: .word w :: .closeBrace :: rest) =
      some ([key], .equals :: .word w :: .closeBrace :: rest) := by
    simp only [Key.path?, Key.part?, if_neg hkey, Option.map_some]
  have hitem : within? (fuel + 1) (.word w :: .closeBrace :: rest) =
      some (item, .closeBrace :: rest) := by
    rw [within?, h]
    rfl
  rw [fieldsWithin?.eq_def]
  simp only [dropNewlines_cons, ne_eq, reduceCtorEq, not_false_eq_true, hpath, hitem,
    Option.bind_some]
  cases es.assign [key] item <;> rfl

theorem read?_braces {key w : String} {item : Item} (hkey : '+' ∉ key.toList)
    (h : ofWord? w = some item) (rest : List Token) :
    read? (.openBrace :: .word key :: .equals :: .word w :: .closeBrace :: rest) =
      some (.table .braces [(key, item)], rest) := by
  have hbound : 2 * (.openBrace :: .word key :: .equals :: .word w :: .closeBrace :: rest).length =
      2 * rest.length + 7 + 2 + 1 := by
    simp only [List.length_cons]
    omega
  rw [read?, hbound, within?, fieldsWithin?_last hkey h]
  rfl

def bracesText (key value : String) : String :=
  "\x7b " ++ key ++ " = " ++ value ++ " \x7d"

theorem reads_bracesText {key value : String} (hkey : IsWord key) (hvalue : IsWord value) :
    Reads (bracesText key value).toList
      [.openBrace, .word key, .equals, .word value, .closeBrace] := by
  have htext : (bracesText key value).toList =
      '\x7b' :: ' ' :: (key.toList ++ ' ' :: '=' :: ' ' :: (value.toList ++ [' ', '\x7d'])) := by
    simp [bracesText]
  have hopen : Mode.stepBetween '\x7b' = some (.between, [.openBrace]) := rfl
  have hclose : Mode.stepBetween '\x7d' = some (.between, [.closeBrace]) := rfl
  have hend : ∀ cs, Delimited (' ' :: cs) := fun _ => delimited_cons.2 (by decide)
  have hlast : Reads (value.toList ++ [' ', '\x7d']) [.word value, .closeBrace] :=
    .word hvalue (hend _) (.blank (.char hclose .nil))
  rw [htext]
  exact .char hopen (.blank (.word hkey (hend _) hlast.equals))

end Item

/-! ## Statements -/

namespace Statement

theorem ne_newline_of_first? {t : Token} {ts : List Token} {p : Statement × List Token}
    (h : first? (t :: ts) = some p) : t ≠ .newline := by
  rintro rfl
  rw [first?, Key.path?_of_part? rfl] at h
  · cases h
  · nofun

@[simp] theorem all?_newline (ts : List Token) : all? (.newline :: ts) = all? ts := by
  rw [all?]

@[simp] theorem all?_nil : all? [] = some [] := by
  rw [all?]

variable {s : Statement}

theorem all?_of_first? {ts : List Token} (h : first? ts = some (s, [])) : all? ts = some [s] := by
  cases ts with
  | nil => cases h
  | cons t ts =>
      have ht := ne_newline_of_first? h
      rw [all?]
      · split <;> simp_all
      · exact fun heq => ht heq

theorem all?_of_first?_newline {ts rest : List Token}
    (h : first? ts = some (s, .newline :: rest)) : all? ts = (all? rest).map (s :: ·) := by
  cases ts with
  | nil => cases h
  | cons t ts =>
      have ht := ne_newline_of_first? h
      rw [all?]
      · split <;> simp_all
      · exact fun heq => ht heq

end Statement

def IsValue (ts : List Token) (item : Item) : Prop :=
  ∀ rest, Item.read? (ts ++ rest) = some (item, rest)

theorem isValue_word {w : String} {item : Item} (h : Item.ofWord? w = some item) :
    IsValue [.word w] item :=
  fun rest => Item.read?_word h rest

theorem isValue_braces {key w : String} {item : Item} (hkey : Key.IsBare key)
    (h : Item.ofWord? w = some item) :
    IsValue [.openBrace, .word key, .equals, .word w, .closeBrace]
      (.table .braces [(key, item)]) :=
  fun rest => Item.read?_braces hkey.2 h rest

def IsStatement (ts : List Token) (s : Statement) : Prop :=
  ∀ rest, Statement.first? (ts ++ rest) = some (s, rest)

theorem isStatement_header {path : List String} (h : Key.IsBarePath path) :
    IsStatement (.openBracket :: (Key.tokens path ++ [.closeBracket])) (.header path) := by
  intro rest
  rw [List.cons_append, List.append_assoc, List.singleton_append, Statement.first?,
    Key.path?_tokens h (t := .closeBracket) nofun]
  rfl

theorem isStatement_assign {path : List String} {ts : List Token} {item : Item}
    (h : Key.IsBarePath path) (hvalue : IsValue ts item) :
    IsStatement (Key.tokens path ++ .equals :: ts) (.assign path item) := by
  intro rest
  have hkey : ∀ ts', Key.tokens path ++ .equals :: (ts ++ rest) = .openBracket :: ts' → False := by
    intro ts' heq
    have hpath := Key.path?_tokens h (t := .equals) nofun (ts ++ rest)
    rw [heq, Key.path?_of_part? rfl] at hpath
    cases hpath
  rw [List.append_assoc, List.cons_append, Statement.first?.eq_2 _ hkey,
    Key.path?_tokens h (t := .equals) nofun, Option.bind_some]
  change (Item.read? (ts ++ rest)).map _ = _
  rw [hvalue rest]
  rfl

theorem reads_assign {path : List String} {value : String} {ts : List Token}
    (h : Key.IsBarePath path) (hreads : Reads value.toList ts) :
    Reads (Key.text path ++ " = " ++ value).toList (Key.tokens path ++ .equals :: ts) := by
  have htext : (Key.text path ++ " = " ++ value).toList =
      (Key.text path).toList ++ ' ' :: '=' :: ' ' :: value.toList := by
    simp
  rw [htext]
  exact (Key.reads_text h).append hreads.equals (delimited_cons.2 (by decide))

/-! ## Lines -/

/-- Lines, each blank or with one statement, and the statements that they hold. -/
inductive Holds : List String → List Statement → Prop
  | nil : Holds [] []
  | blank {line : String} {lines : List String} {ss : List Statement}
      (hline : Reads line.toList []) (hrest : Holds lines ss) : Holds (line :: lines) ss
  | statement {line : String} {ts : List Token} {s : Statement} {lines : List String}
      {ss : List Statement} (hline : Reads line.toList ts) (hstatement : IsStatement ts s)
      (hrest : Holds lines ss) : Holds (line :: lines) (s :: ss)

namespace Holds

variable {lines lines' : List String} {ss ss' : List Statement}

theorem append (h : Holds lines ss) (h' : Holds lines' ss') :
    Holds (lines ++ lines') (ss ++ ss') := by
  induction h with
  | nil => exact h'
  | blank hline _ ih => exact .blank hline ih
  | statement hline hstatement _ ih => exact .statement hline hstatement ih

theorem blanks (n : Nat) : Holds (List.replicate n "") [] := by
  induction n with
  | zero => exact .nil
  | succ n ih => exact .blank .nil ih

theorem header {path : List String} (h : Key.IsBarePath path) :
    Holds ["[" ++ Key.text path ++ "]"] [.header path] := by
  have htext : ("[" ++ Key.text path ++ "]").toList = '[' :: ((Key.text path).toList ++ [']']) := by
    simp
  have hopen : Mode.stepBetween '[' = some (.between, [.openBracket]) := rfl
  have hclose : Mode.stepBetween ']' = some (.between, [.closeBracket]) := rfl
  have hpath := (Key.reads_text h).append (.char hclose .nil) (delimited_cons.2 (by decide))
  refine .statement ?_ (isStatement_header h) .nil
  rw [htext]
  exact .char hopen hpath

theorem assign {path : List String} {value : String} {ts : List Token} {item : Item}
    (h : Key.IsBarePath path) (hreads : Reads value.toList ts) (hvalue : IsValue ts item) :
    Holds [Key.text path ++ " = " ++ value] [.assign path item] :=
  .statement (reads_assign h hreads) (isStatement_assign h hvalue) .nil

theorem option {α : Type} {f : α → List String} {g : α → List Statement}
    (h : ∀ a, Holds (f a) (g a)) (o : Option α) :
    Holds (o.toList.flatMap f) (o.toList.flatMap g) := by
  cases o with
  | none => exact .nil
  | some a => simpa using h a

theorem exists_tokens (h : Holds lines ss) :
    ∃ tss, List.Forall₂ (fun line => Reads line.toList) lines tss ∧
      Statement.all? ([Token.newline].intercalate tss) = some ss := by
  induction h with
  | nil => exact ⟨[], .nil, Statement.all?_nil⟩
  | @blank line lines ss hline _ ih =>
      obtain ⟨tss, hlines, hall⟩ := ih
      refine ⟨[] :: tss, .cons hline hlines, ?_⟩
      cases tss with
      | nil => exact hall
      | cons ts tss => simpa [List.intercalate_cons_cons] using hall
  | @statement line ts s lines ss hline hstatement _ ih =>
      obtain ⟨tss, hlines, hall⟩ := ih
      refine ⟨ts :: tss, .cons hline hlines, ?_⟩
      cases tss with
      | nil =>
          obtain rfl : ss = [] := by simpa using hall.symm
          have hlast := hstatement []
          rw [List.append_nil] at hlast
          rw [List.intercalate_singleton]
          exact Statement.all?_of_first? hlast
      | cons ts' tss =>
          have hfirst := hstatement (.newline :: [Token.newline].intercalate (ts' :: tss))
          rw [List.intercalate_cons_cons, List.append_assoc, List.singleton_append,
            Statement.all?_of_first?_newline hfirst, hall]
          rfl

/-- A document of such lines is read as their statements. -/
theorem read?_eq (h : Holds lines ss) (e : LineEnd) :
    Document.read? (e.text.intercalate lines) =
      (Document.ofStatements ss).map Document.entries := by
  obtain ⟨tss, hlines, hall⟩ := h.exists_tokens
  rw [Document.read?, Token.scan_lines e hlines, Option.bind_some, hall, Option.bind_some]

end Holds

end CodegenRegistry.Toml
