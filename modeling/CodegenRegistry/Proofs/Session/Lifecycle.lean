import CodegenRegistry.Session
/-!
# The life of a registry

A registry takes entries until the first operation that ends registration. Batches, whether they
succeed or not, and queries leave its catalog alone. Main statement: at each point of a run the
registry answers from the last entry of each name before registration ended.
-/

namespace CodegenRegistry

variable {H : Host}

/-! ## Operations -/

namespace Operation

/-- Whether an operation ends registration. A batch does if the settings say so. -/
def seals (settings : Settings) : Operation H → Bool
  | endRegistration => true
  | compose .. | runBatch .. => settings.sealOnFirstBatch
  | _ => false

def registration? : Operation H → Option (String × Entry H)
  | register name entry => some (name, entry)
  | _ => none

@[simp] theorem seals_register (settings : Settings) (name : String) (entry : Entry H) :
    (register name entry).seals settings = false := rfl

@[simp] theorem registration?_register (name : String) (entry : Entry H) :
    (register name entry).registration? = some (name, entry) := rfl

theorem eq_register_or (op : Operation H) :
    (∃ name entry, op = .register name entry) ∨ op.registration? = none := by
  cases op with
  | register name entry => exact .inl ⟨name, entry, rfl⟩
  | _ => exact .inr rfl

def latest? (name : String) (ops : List (Operation H)) : Option (Entry H) :=
  (ops.filterMap registration?).reverse.lookup name

theorem latest?_cons (name : String) (op : Operation H) (ops : List (Operation H)) :
    latest? name (op :: ops) =
      (latest? name ops).or (op.registration?.toList.lookup name) := by
  unfold latest?
  cases h : op.registration? with
  | none => simp [h]
  | some registration => simp [h, List.lookup_append]

def sealingPoint (settings : Settings) (ops : List (Operation H)) : Nat :=
  ops.findIdx fun op => op.seals settings

end Operation

/-! ## One step -/

namespace Registry

theorem startBatch_fst (r : Registry H) :
    r.startBatch.1 = { r with isSealed := r.isSealed || r.settings.sealOnFirstBatch } := by
  obtain ⟨settings, catalog, isSealed⟩ := r
  unfold startBatch endRegistration
  cases settings.sealOnFirstBatch <;> cases isSealed <;> rfl

theorem registry_perform_of_none (r : Registry H) {op : Operation H}
    (h : op.registration? = none) :
    (r.perform op).registry = { r with isSealed := r.isSealed || op.seals r.settings } := by
  cases op with
  | register name entry => cases h
  | endRegistration =>
      obtain ⟨settings, catalog, isSealed⟩ := r
      cases isSealed <;> rfl
  | compose a invs => exact startBatch_fst r
  | runBatch a invs => exact startBatch_fst r
  | _ => simp [perform, Operation.seals]

theorem registry_perform_register (r : Registry H) (name : String) (entry : Entry H) :
    (r.perform (.register name entry)).registry =
      if r.isSealed then r else { r with catalog := r.catalog.insert name entry } := by
  show (r.register name entry).1 = _
  unfold register
  split <;> rfl

theorem reply_perform_register (r : Registry H) (name : String) (entry : Entry H) :
    (r.perform (.register name entry)).reply =
      .registered (if r.isSealed then .error ⟨name⟩ else .ok name) := by
  show Reply.registered (r.register name entry).2.result = _
  unfold register
  split <;> rfl

theorem settings_perform (r : Registry H) (op : Operation H) :
    (r.perform op).registry.settings = r.settings := by
  rcases op.eq_register_or with ⟨name, entry, rfl⟩ | h
  · rw [registry_perform_register]
    split <;> rfl
  · rw [registry_perform_of_none r h]

theorem isSealed_perform (r : Registry H) (op : Operation H) :
    (r.perform op).registry.isSealed = (r.isSealed || op.seals r.settings) := by
  rcases op.eq_register_or with ⟨name, entry, rfl⟩ | h
  · rw [registry_perform_register, Operation.seals_register, Bool.or_false]
    split <;> rfl
  · rw [registry_perform_of_none r h]

theorem catalog_perform_of_none (r : Registry H) {op : Operation H}
    (h : op.registration? = none) : (r.perform op).registry.catalog = r.catalog := by
  rw [registry_perform_of_none r h]

theorem catalog_perform_of_sealed {r : Registry H} (h : r.isSealed) (op : Operation H) :
    (r.perform op).registry.catalog = r.catalog := by
  rcases op.eq_register_or with ⟨name, entry, rfl⟩ | hop
  · rw [registry_perform_register, if_pos h]
  · exact catalog_perform_of_none r hop

theorem catalog_perform_of_seals {r : Registry H} {op : Operation H}
    (h : op.seals r.settings) : (r.perform op).registry.catalog = r.catalog := by
  rcases op.eq_register_or with ⟨name, entry, rfl⟩ | hop
  · simp at h
  · exact catalog_perform_of_none r hop

theorem find?_perform_of_open {r : Registry H} (h : r.isSealed = false) (op : Operation H)
    (name : String) :
    (r.perform op).registry.catalog.find? name =
      (op.registration?.toList.lookup name).or (r.catalog.find? name) := by
  rcases op.eq_register_or with ⟨other, entry, rfl⟩ | hop
  · rw [registry_perform_register, if_neg (by simp [h])]
    show (r.catalog.insert other entry).find? name = _
    rw [NameTable.find?_insert]
    by_cases hname : name = other
    · simp [hname]
    · simp [hname, List.lookup_cons, beq_false_of_ne hname]
  · rw [catalog_perform_of_none r hop, hop]
    rfl

/-! ## Runs -/

theorem after_cons (r : Registry H) (op : Operation H) (ops : List (Operation H)) :
    r.after (op :: ops) = (r.perform op).registry.after ops := rfl

theorem after_append (r : Registry H) (ops ops' : List (Operation H)) :
    r.after (ops ++ ops') = (r.after ops).after ops' :=
  List.foldl_append

theorem getElem?_performAll (r : Registry H) (ops : List (Operation H)) (i : Nat) :
    (r.performAll ops)[i]? = ops[i]?.map (r.after (ops.take i)).perform := by
  induction ops generalizing r i with
  | nil => simp [performAll]
  | cons op ops ih =>
      rw [performAll]
      cases i with
      | zero => rfl
      | succ i => exact ih _ i

theorem settings_after (r : Registry H) (ops : List (Operation H)) :
    (r.after ops).settings = r.settings := by
  induction ops generalizing r with
  | nil => rfl
  | cons op ops ih => rw [after_cons, ih, settings_perform]

theorem isSealed_after (r : Registry H) (ops : List (Operation H)) :
    (r.after ops).isSealed = (r.isSealed || ops.any fun op => op.seals r.settings) := by
  induction ops generalizing r with
  | nil => simp [after]
  | cons op ops ih =>
      rw [after_cons, ih, isSealed_perform, settings_perform, List.any_cons, Bool.or_assoc]

theorem catalog_after_of_sealed {r : Registry H} (h : r.isSealed) (ops : List (Operation H)) :
    (r.after ops).catalog = r.catalog := by
  induction ops generalizing r with
  | nil => rfl
  | cons op ops ih =>
      have hsealed : (r.perform op).registry.isSealed := by simp [isSealed_perform, h]
      rw [after_cons, ih hsealed, catalog_perform_of_sealed h]

/-- What is registered after the first operation that ends registration does not count. -/
theorem find?_after_of_open {r : Registry H} (h : r.isSealed = false)
    (ops : List (Operation H)) (name : String) :
    (r.after ops).catalog.find? name =
      (Operation.latest? name (ops.take (Operation.sealingPoint r.settings ops))).or
        (r.catalog.find? name) := by
  induction ops generalizing r with
  | nil => rfl
  | cons op ops ih =>
      rw [after_cons, Operation.sealingPoint, List.findIdx_cons]
      cases hop : op.seals r.settings with
      | true =>
          -- no operation counts: this one enters nothing, and the others come too late
          have hsealed : (r.perform op).registry.isSealed := by simp [isSealed_perform, hop]
          rw [catalog_after_of_sealed hsealed, catalog_perform_of_seals hop]
          rfl
      | false =>
          have hopen : (r.perform op).registry.isSealed = false := by
            simp [isSealed_perform, h, hop]
          rw [ih hopen, settings_perform, find?_perform_of_open h, cond_false, List.take_succ_cons,
            Operation.latest?_cons, Option.or_assoc]
          rfl

/-! ## Points of a run -/

@[simp] theorem isSealed_fresh (settings : Settings) :
    (fresh settings : Registry H).isSealed = false := rfl

@[simp] theorem settings_fresh (settings : Settings) :
    (fresh settings : Registry H).settings = settings := rfl

theorem find?_after_fresh (settings : Settings) (ops : List (Operation H)) (name : String) :
    ((fresh settings).after ops).catalog.find? name =
      Operation.latest? name (ops.take (Operation.sealingPoint settings ops)) := by
  have hnone : (fresh settings : Registry H).catalog.find? name = none := rfl
  rw [find?_after_of_open (isSealed_fresh settings), settings_fresh, hnone, Option.or_none]

/-- What a registry says of one name that has an entry, or has none. -/
structure AnswersFor (r : Registry H) (name : String) (held : Option (Entry H)) : Prop where
  find? : r.catalog.find? name = held
  contains : r.contains name ↔ held ≠ none
  mem_names : name ∈ r.names ↔ held ≠ none
  ofBundle : ∀ b : Bundle H, held = some (.ofBundle b) →
    r.expression? name = b.expression ∧
      r.describe name = some (.generator (Site.all.filter fun site => (b.generators site).isSome)
        b.expression.isSome)
  ofAlias : ∀ a : Alias, held = some (.ofAlias a) →
    r.expression? name = none ∧
      r.describe name = some (.aliased a.fallback
        (Site.all.filterMap fun site => (a.overrides site).map fun names => (site, names)))
  ofNone : held = none → r.expression? name = none ∧ r.describe name = none

structure Answers (r : Registry H) (entries : String → Option (Entry H)) : Prop where
  names : ∀ name, r.AnswersFor name (entries name)
  sorted : r.names.Pairwise (· < ·)
  distinct : r.names.Nodup
  size : r.size = r.names.length
  isEmpty : r.isEmpty ↔ ∀ name, entries name = none

structure RepliesTo (before : Registry H) (op : Operation H) (reply : Reply H) : Prop where
  survey : op = .survey → reply =
    .survey ⟨before.isSealed, before.names, before.size, before.isEmpty, before.settings⟩
  contains : ∀ name, op = .contains name → reply = .contains (before.contains name)
  describe : ∀ name, op = .describe name → reply = .description (before.describe name)
  expression : ∀ name, op = .expression name → reply = .expression (before.expression? name)

theorem isEmpty_iff (r : Registry H) : r.isEmpty ↔ ∀ name, r.catalog.find? name = none := by
  have hnames : r.isEmpty ↔ r.names = [] := by
    rw [isEmpty, size, ← NameTable.length_names, beq_iff_eq, List.length_eq_zero_iff]
    rfl
  rw [hnames, List.eq_nil_iff_forall_not_mem]
  simp only [names, NameTable.mem_names_iff, Option.not_isSome_iff_eq_none]

theorem answersFor_of_find? {r : Registry H} {name : String} {held : Option (Entry H)}
    (h : r.catalog.find? name = held) : r.AnswersFor name held where
  find? := h
  contains := by rw [contains, NameTable.contains, h, Option.isSome_iff_ne_none]
  mem_names := by rw [names, NameTable.mem_names_iff, h, Option.isSome_iff_ne_none]
  ofBundle b hb := by
    rw [expression?, describe, h, hb]
    exact ⟨rfl, rfl⟩
  ofAlias a ha := by
    rw [expression?, describe, h, ha]
    exact ⟨rfl, rfl⟩
  ofNone hnone := by
    rw [expression?, describe, h, hnone]
    exact ⟨rfl, rfl⟩

theorem answers_of_find? {r : Registry H} {entries : String → Option (Entry H)}
    (h : ∀ name, r.catalog.find? name = entries name) : r.Answers entries where
  names name := answersFor_of_find? (h name)
  sorted := r.catalog.pairwise_names
  distinct := r.catalog.nodup_names
  size := r.catalog.length_names.symm
  isEmpty := by simp only [isEmpty_iff, h]

theorem repliesTo_perform (r : Registry H) (op : Operation H) :
    r.RepliesTo op (r.perform op).reply := by
  constructor
  · rintro rfl
    rfl
  all_goals
    rintro name rfl
    rfl

theorem isSealed_after_take_iff (settings : Settings) {ops : List (Operation H)} {n : Nat}
    (hn : n ≤ ops.length) :
    ((fresh settings).after (ops.take n)).isSealed ↔ Operation.sealingPoint settings ops < n := by
  have hlength : (ops.take n).length = n := by rw [List.length_take]; omega
  rw [isSealed_after, isSealed_fresh, Bool.false_or, List.any_eq_true, ← List.findIdx_lt_length,
    hlength, List.findIdx_take]
  show min n (Operation.sealingPoint settings ops) < n ↔ _
  omega

theorem find?_after_take (settings : Settings) (ops : List (Operation H)) (n : Nat)
    (name : String) :
    ((fresh settings).after (ops.take n)).catalog.find? name =
      Operation.latest? name (ops.take (min n (Operation.sealingPoint settings ops))) := by
  have hpoint : Operation.sealingPoint settings (ops.take n) =
      min n (Operation.sealingPoint settings ops) := List.findIdx_take
  rw [find?_after_fresh, hpoint, List.take_take, Nat.min_eq_left (Nat.min_le_left _ _)]

/-- At each point of a run the registry is sealed if the sealing point has been passed, and
answers from the last entries registered before that point. A registration succeeds before the
point; afterwards it is refused and changes nothing. Other operations leave the catalog alone, and
queries are replied to from the registry as it is. -/
theorem lifecycle_of_run (settings : Settings) (ops : List (Operation H)) :
    (∀ n ≤ ops.length,
      (((fresh settings).after (ops.take n)).isSealed ↔
        Operation.sealingPoint settings ops < n) ∧
      ((fresh settings).after (ops.take n)).settings = settings ∧
      ((fresh settings).after (ops.take n)).Answers fun name =>
        Operation.latest? name (ops.take (min n (Operation.sealingPoint settings ops)))) ∧
    ∀ i op, ops[i]? = some op → ∃ o, ((fresh settings).performAll ops)[i]? = some o ∧
      o.registry = (fresh settings).after (ops.take (i + 1)) ∧
      (op.registration? = none →
        o.registry.catalog = ((fresh settings).after (ops.take i)).catalog) ∧
      ((fresh settings).after (ops.take i)).RepliesTo op o.reply ∧
      ∀ name entry, op = .register name entry →
        (i < Operation.sealingPoint settings ops → o.reply = .registered (.ok name)) ∧
        (Operation.sealingPoint settings ops < i →
          o.reply = .registered (.error ⟨name⟩) ∧
            o.registry = (fresh settings).after (ops.take i)) := by
  constructor
  · intro n hn
    refine ⟨isSealed_after_take_iff settings hn, settings_after _ _, ?_⟩
    exact answers_of_find? fun name => find?_after_take settings ops n name
  · intro i op hop
    have hi : i < ops.length := (List.getElem?_eq_some_iff.1 hop).1
    have hsealed := isSealed_after_take_iff settings (Nat.le_of_lt hi)
    refine ⟨((fresh settings).after (ops.take i)).perform op, ?_, ?_, ?_,
      repliesTo_perform _ op, ?_⟩
    · rw [getElem?_performAll, hop]
      rfl
    · rw [List.take_add_one, hop, after_append]
      rfl
    · exact catalog_perform_of_none _
    · rintro name entry rfl
      have hreply := reply_perform_register ((fresh settings).after (ops.take i)) name entry
      have hregistry :=
        registry_perform_register ((fresh settings).after (ops.take i)) name entry
      constructor
      · intro hbefore
        rw [hreply, if_neg (by rw [hsealed]; omega)]
      · intro hafter
        rw [hreply, hregistry, if_pos (hsealed.2 hafter), if_pos (hsealed.2 hafter)]
        exact ⟨rfl, rfl⟩

/-- A batch that fails ends registration. The bundle that came in the place of an alias before it
stays, with its expression. -/
theorem lifecycle_of_replacement :
    let item : Host.text.Context → Host.text.Declaration → Host.text.Item :=
      fun (c d : String) => c ++ d
    let shown : Entry Host.text := .ofBundle ⟨fun _ => none, some item⟩
    let aliased : Entry Host.text := .ofAlias ⟨["show"], fun _ => none⟩
    let ops : List (Operation Host.text) :=
      [.register "show" aliased, .register "show" shown, .register "both" aliased,
        .compose ⟨.structureType, "", ""⟩ [⟨⟨"shwo", .nowhere⟩, []⟩],
        .register "show" aliased, .expression "show", .expression "both"]
    let outcomes := (fresh {}).performAll ops
    (outcomes[4]?.map Outcome.reply = some (.registered (.error ⟨"show"⟩))) ∧
      outcomes[5]?.map Outcome.reply = some (.expression (some item)) ∧
      outcomes[6]?.map Outcome.reply = some (.expression none) ∧
      ((fresh {}).after ops).isSealed ∧
      ((fresh {}).after ops).describe "show" = some (.generator [] true) ∧
      ((fresh {}).after ops).describe "both" = some (.aliased ["show"] []) := by
  intro item shown aliased ops outcomes
  obtain ⟨hpoints, hsteps⟩ := lifecycle_of_run {} ops
  -- the sealing point is 3, so that the registrations that count are the first three
  obtain ⟨hsealed, -, hend⟩ := hpoints 7 (by decide)
  obtain ⟨-, -, hmiddle⟩ := hpoints 5 (by decide)
  obtain ⟨-, -, hlate⟩ := hpoints 6 (by decide)
  obtain ⟨o₄, ho₄, -, -, -, hregistration⟩ := hsteps 4 _ rfl
  obtain ⟨o₅, ho₅, -, -, hreply₅, -⟩ := hsteps 5 _ rfl
  obtain ⟨o₆, ho₆, -, -, hreply₆, -⟩ := hsteps 6 _ rfl
  have hrefused := ((hregistration "show" aliased rfl).2 (by decide)).1
  have hshown := (hmiddle.names "show").ofBundle ⟨fun _ => none, some item⟩ rfl
  have hboth := (hlate.names "both").ofAlias ⟨["show"], fun _ => none⟩ rfl
  refine ⟨?_, ?_, ?_, hsealed.2 (by decide), ?_, ?_⟩
  · rw [ho₄, Option.map_some, hrefused]
  · rw [ho₅, Option.map_some, hreply₅.expression "show" rfl, hshown.1]
  · rw [ho₆, Option.map_some, hreply₆.expression "both" rfl, hboth.1]
  · exact ((hend.names "show").ofBundle ⟨fun _ => none, some item⟩ rfl).2
  · exact ((hend.names "both").ofAlias ⟨["show"], fun _ => none⟩ rfl).2

end Registry

end CodegenRegistry
