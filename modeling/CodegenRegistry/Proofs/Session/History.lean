import CodegenRegistry.Proofs.Batch.Reporting
import CodegenRegistry.Proofs.Session.Lifecycle
import Mathlib
/-!
# What the events of a run tell

A run reports each registration and the end of registration, and between these what resolutions
and batches do. Main statement: at each point of a run the names and the kinds of the entries can be
told from the events alone, and registration is reported to have ended once it has.
-/

namespace CodegenRegistry

variable {H : Host}

/-! ## Events about the table -/

namespace Event

def added? : Event → Option String
  | entryAdded name _ => some name
  | _ => none

def entered? : Event → Option (String × Entry.Kind)
  | entryAdded name kind | entryReplaced name kind _ => some (name, kind)
  | _ => none

def sealed? : Event → Option Nat
  | registrySealed entries => some entries
  | _ => none

/-- The kind in the last event that says what was entered under a name. -/
def latestKind? (name : String) (log : List Event) : Option Entry.Kind :=
  (log.filterMap entered?).reverse.lookup name

theorem latestKind?_append (name : String) (log log' : List Event) :
    latestKind? name (log ++ log') = (latestKind? name log').or (latestKind? name log) := by
  rw [latestKind?, List.filterMap_append, List.reverse_append, List.lookup_append]
  rfl

theorem readings_of_not_concernsTable {e : Event} (h : ¬ e.concernsTable) :
    e.added? = none ∧ e.entered? = none ∧ e.sealed? = none := by
  cases e <;> simp_all [concernsTable, added?, entered?, sealed?]

end Event

namespace Operation

def registeredNames (ops : List (Operation H)) : List String :=
  (ops.filterMap registration?).map Prod.fst

theorem isSome_latest?_iff {name : String} {ops : List (Operation H)} :
    (latest? name ops).isSome ↔ name ∈ registeredNames ops :=
  isSome_lookup_reverse_iff

end Operation

namespace Registry

/-! ## One step -/

def registrationEvent (r : Registry H) (name : String) (entry : Entry H) : Event :=
  if r.isSealed then .registrationRejected name entry.kind
  else
    match r.catalog.find? name with
    | none => .entryAdded name entry.kind
    | some previous => .entryReplaced name entry.kind previous.kind

theorem events_perform_register (r : Registry H) (name : String) (entry : Entry H) :
    (r.perform (.register name entry)).events = [r.registrationEvent name entry] := by
  show (r.register name entry).2.log = _
  unfold register registrationEvent
  split
  · rfl
  · cases r.catalog.find? name <;> rfl

theorem registrationEvent_eq_added_iff {r : Registry H} {name : String} {entry : Entry H} :
    r.registrationEvent name entry = .entryAdded name entry.kind ↔
      ¬ r.isSealed ∧ name ∉ r.names := by
  rw [registrationEvent, names, NameTable.mem_names_iff]
  split
  · simp_all
  · cases r.catalog.find? name <;> simp_all

theorem registrationEvent_eq_replaced_iff {r : Registry H} {name : String} {entry : Entry H}
    {previous : Entry.Kind} :
    r.registrationEvent name entry = .entryReplaced name entry.kind previous ↔
      ¬ r.isSealed ∧ (r.catalog.find? name).map Entry.kind = some previous := by
  rw [registrationEvent]
  split
  · simp_all
  · cases r.catalog.find? name <;> simp_all

theorem registrationEvent_eq_rejected_iff {r : Registry H} {name : String} {entry : Entry H} :
    r.registrationEvent name entry = .registrationRejected name entry.kind ↔ r.isSealed := by
  rw [registrationEvent]
  split
  · simp_all
  · cases r.catalog.find? name <;> simp_all

theorem reply_perform_register_iff {r : Registry H} {name : String} {entry : Entry H} :
    (r.perform (.register name entry)).reply = .registered (.ok name) ↔ ¬ r.isSealed := by
  rw [reply_perform_register]
  split <;> simp_all

theorem startBatch_snd (r : Registry H) :
    r.startBatch.2 =
      if !r.isSealed && r.settings.sealOnFirstBatch then [.registrySealed r.size] else [] := by
  unfold startBatch endRegistration size
  cases r.isSealed <;> cases r.settings.sealOnFirstBatch <;> rfl

/-- An operation that registers nothing reports the end of registration if it ends it, and nothing
else about the table. -/
theorem events_perform_of_none (r : Registry H) {op : Operation H}
    (h : op.registration? = none) :
    ∃ rest : List Event, (∀ e ∈ rest, ¬ e.concernsTable) ∧
      (r.perform op).events =
        (if !r.isSealed && op.seals r.settings then [.registrySealed r.size] else []) ++ rest := by
  have hbatch (a : Attachment H) (invs : List (Invocation H.Raw)) :
      (r.compose a invs).2.log =
        (if !r.isSealed && r.settings.sealOnFirstBatch then [.registrySealed r.size] else []) ++
          (r.startBatch.1.composeAll a invs).log := by
    rw [← startBatch_snd]
    rfl
  cases op with
  | register name entry => cases h
  | endRegistration =>
      refine ⟨[], List.forall_mem_nil _, ?_⟩
      show r.endRegistration.2 = _
      unfold endRegistration size
      cases hsealed : r.isSealed <;> simp [Operation.seals]
  | resolve site name =>
      refine ⟨(r.resolve site name).log, ?_, by simp [perform, Operation.seals]⟩
      exact (r.reports_resolve site name).mono fun _ => Event.not_concernsTable_of_isResolution
  | apply a name args =>
      refine ⟨(r.applyName a name args).log, ?_, by simp [perform, Operation.seals]⟩
      exact (r.reports_applyName a name args).mono
        fun _ => Event.not_concernsTable_of_isResolution
  | compose a invs => exact ⟨_, reports_composeAll _ a invs, hbatch a invs⟩
  | runBatch a invs =>
      refine ⟨(r.startBatch.1.composeAll a invs).log, reports_composeAll _ a invs, ?_⟩
      exact (Logged.log_map _ _).trans (hbatch a invs)
  | _ => exact ⟨[], List.forall_mem_nil _, by simp [perform, Operation.seals]⟩

theorem sealed?_perform (r : Registry H) (op : Operation H) :
    (r.perform op).events.filterMap Event.sealed? =
      if !r.isSealed && op.seals r.settings then [r.size] else [] := by
  rcases op.eq_register_or with ⟨name, entry, rfl⟩ | hop
  · rw [events_perform_register, registrationEvent]
    cases r.isSealed <;> cases r.catalog.find? name <;> rfl
  · obtain ⟨rest, hrest, hevents⟩ := r.events_perform_of_none hop
    have hnone : rest.filterMap Event.sealed? = [] := by
      apply List.filterMap_eq_nil_iff.2
      exact fun e he => (Event.readings_of_not_concernsTable (hrest e he)).2.2
    rw [hevents, List.filterMap_append, hnone, List.append_nil]
    split <;> rfl

/-! ## Runs -/

def history (r : Registry H) (ops : List (Operation H)) : List Event :=
  (r.performAll ops).flatMap Outcome.events

theorem history_cons (r : Registry H) (op : Operation H) (ops : List (Operation H)) :
    r.history (op :: ops) = (r.perform op).events ++ (r.perform op).registry.history ops := by
  rw [history, performAll, List.flatMap_cons]
  rfl

/-- The one event of a registration, which comes after the events of a log. -/
structure ReportsRegistration (before : Registry H) (log : List Event) (name : String)
    (entry : Entry H) (o : Outcome H) : Prop where
  single : ∃ e, o.events = [e]
  added : o.events = [.entryAdded name entry.kind] ↔
    o.reply = .registered (.ok name) ∧ name ∉ before.names
  replaced : (∃ previous, o.events = [.entryReplaced name entry.kind previous]) ↔
    o.reply = .registered (.ok name) ∧ name ∈ before.names
  previous : ∀ previous, o.events = [.entryReplaced name entry.kind previous] →
    Event.latestKind? name log = some previous
  rejected : o.events = [.registrationRejected name entry.kind] ↔ before.isSealed

/-- Events from which the names of a registry, the kinds of its entries, and whether it is sealed
can be told. -/
structure AccountedBy (r : Registry H) (log : List Event) : Prop where
  distinct : (log.filterMap Event.added?).Nodup
  mem_added : ∀ name, name ∈ log.filterMap Event.added? ↔ name ∈ r.names
  latestKind? : ∀ name, Event.latestKind? name log = (r.describe name).map Entry.Description.kind
  sealings : log.filterMap Event.sealed? = if r.isSealed then [r.size] else []

private theorem filterMap_append_singleton {β : Type} (f : Event → Option β) (log : List Event)
    (e : Event) : (log ++ [e]).filterMap f = log.filterMap f ++ (f e).toList := by
  rw [List.filterMap_append]
  cases h : f e <;> simp [h]

theorem mem_names_insert (r : Registry H) (name : String) (entry : Entry H) {other : String} :
    other ∈ ({ r with catalog := r.catalog.insert name entry } : Registry H).names ↔
      other = name ∨ other ∈ r.names := by
  rw [names, names, NameTable.mem_names_iff, NameTable.mem_names_iff, NameTable.find?_insert]
  by_cases hother : other = name <;> simp [hother]

namespace AccountedBy

variable {r : Registry H} {log rest : List Event} {name : String} {entry : Entry H} {e : Event}

theorem ofFresh (settings : Settings) : (fresh settings : Registry H).AccountedBy [] where
  distinct := .nil
  mem_added _ := Iff.rfl
  latestKind? _ := rfl
  sealings := rfl

theorem append (h : r.AccountedBy log)
    (hrest : ∀ e ∈ rest, e.added? = none ∧ e.entered? = none ∧ e.sealed? = none) :
    r.AccountedBy (log ++ rest) := by
  have hadded : rest.filterMap Event.added? = [] :=
    List.filterMap_eq_nil_iff.2 fun e he => (hrest e he).1
  have hentered : rest.filterMap Event.entered? = [] :=
    List.filterMap_eq_nil_iff.2 fun e he => (hrest e he).2.1
  have hsealed : rest.filterMap Event.sealed? = [] :=
    List.filterMap_eq_nil_iff.2 fun e he => (hrest e he).2.2
  constructor
  · rw [List.filterMap_append, hadded, List.append_nil]
    exact h.distinct
  · rw [List.filterMap_append, hadded, List.append_nil]
    exact h.mem_added
  · intro name
    rw [Event.latestKind?_append, Event.latestKind?, hentered]
    exact h.latestKind? name
  · rw [List.filterMap_append, hsealed, List.append_nil]
    exact h.sealings

theorem endRegistration (h : r.AccountedBy log) (hopen : r.isSealed = false) :
    AccountedBy { r with isSealed := true } (log ++ [.registrySealed r.size]) := by
  have hadded : (log ++ [Event.registrySealed r.size]).filterMap Event.added? =
      log.filterMap Event.added? := by
    rw [filterMap_append_singleton]
    exact List.append_nil _
  constructor
  · rw [hadded]
    exact h.distinct
  · rw [hadded]
    exact h.mem_added
  · intro name
    rw [Event.latestKind?_append]
    exact h.latestKind? name
  · rw [filterMap_append_singleton, h.sealings, hopen]
    rfl

/-- An event that enters a kind under a name is the one to go by for this name, and for no other.
It also adds the name if this is new. -/
theorem enter (h : r.AccountedBy log) (hopen : r.isSealed = false)
    (hadded : e.added? = if name ∈ r.names then none else some name)
    (hentered : e.entered? = some (name, entry.kind)) (hsealed : e.sealed? = none) :
    AccountedBy { r with catalog := r.catalog.insert name entry } (log ++ [e]) where
  distinct := by
    rw [filterMap_append_singleton, hadded]
    split
    · rw [Option.toList_none, List.append_nil]
      exact h.distinct
    · rename_i hnew
      rw [← h.mem_added] at hnew
      rw [Option.toList_some, ← List.concat_eq_append]
      exact h.distinct.concat hnew
  mem_added := by
    intro other
    rw [mem_names_insert, filterMap_append_singleton, hadded, List.mem_append, h.mem_added]
    split
    · rename_i hknown
      have hother : other = name → other ∈ r.names := fun heq => heq ▸ hknown
      rw [Option.toList_none, or_iff_right_of_imp hother, List.mem_nil_iff, or_false]
    · rw [Option.toList_some, List.mem_singleton, or_comm]
  latestKind? := by
    intro other
    have hlast : Event.latestKind? other [e] = [(name, entry.kind)].lookup other := by
      simp [Event.latestKind?, hentered]
    rw [Event.latestKind?_append, hlast, h.latestKind?, describe, describe,
      NameTable.find?_insert]
    by_cases hother : other = name
    · simp [hother]
    · simp [hother, List.lookup_cons, beq_false_of_ne hother]
  sealings := by
    rw [filterMap_append_singleton, h.sealings, hsealed, hopen]
    rfl

theorem register (h : r.AccountedBy log) (name : String) (entry : Entry H) :
    (r.perform (.register name entry)).registry.AccountedBy
      (log ++ [r.registrationEvent name entry]) := by
  rw [registry_perform_register, registrationEvent]
  by_cases hsealed : r.isSealed
  · rw [if_pos hsealed, if_pos hsealed]
    exact h.append (List.forall_mem_singleton.2 ⟨rfl, rfl, rfl⟩)
  · rw [if_neg hsealed, if_neg hsealed]
    have hopen : r.isSealed = false := by simpa using hsealed
    cases hfind : r.catalog.find? name with
    | none =>
        have hnew : name ∉ r.names := by
          rw [names, NameTable.mem_names_iff, hfind]
          exact Bool.false_ne_true
        exact h.enter hopen (if_neg hnew).symm rfl rfl
    | some previous =>
        have hknown : name ∈ r.names := NameTable.mem_names_of_find? hfind
        exact h.enter hopen (if_pos hknown).symm rfl rfl

theorem perform (h : r.AccountedBy log) (op : Operation H) :
    (r.perform op).registry.AccountedBy (log ++ (r.perform op).events) := by
  rcases op.eq_register_or with ⟨name, entry, rfl⟩ | hop
  · rw [events_perform_register]
    exact h.register name entry
  · obtain ⟨rest, hrest, hevents⟩ := r.events_perform_of_none hop
    rw [registry_perform_of_none r hop, hevents, ← List.append_assoc]
    refine append ?_ fun e he => Event.readings_of_not_concernsTable (hrest e he)
    obtain ⟨settings, catalog, isSealed⟩ := r
    cases isSealed with
    | true =>
        rw [Bool.not_true, Bool.false_and, if_neg Bool.false_ne_true, List.append_nil]
        exact h
    | false =>
        show AccountedBy ⟨settings, catalog, op.seals settings⟩
          (log ++ if op.seals settings then [.registrySealed catalog.size] else [])
        cases op.seals settings with
        | true => exact h.endRegistration rfl
        | false => exact (List.append_nil log).symm ▸ h

theorem reportsRegistration (h : r.AccountedBy log) (name : String) (entry : Entry H) :
    ReportsRegistration r log name entry (r.perform (.register name entry)) := by
  have hevents (e : Event) : (r.perform (.register name entry)).events = [e] ↔
      r.registrationEvent name entry = e := by
    rw [events_perform_register, List.cons.injEq, and_iff_left rfl]
  constructor
  · exact ⟨_, events_perform_register r name entry⟩
  · rw [hevents, registrationEvent_eq_added_iff, reply_perform_register_iff]
  · simp only [hevents, registrationEvent_eq_replaced_iff, reply_perform_register_iff,
      exists_and_left, names, NameTable.mem_names_iff, ← Option.isSome_iff_exists,
      Option.isSome_map]
  · intro previous hprevious
    obtain ⟨-, hkind⟩ := registrationEvent_eq_replaced_iff.1 ((hevents _).1 hprevious)
    rw [h.latestKind?, describe, Option.map_map, ← hkind]
    congr 1
    funext e
    exact e.kind_describe
  · rw [hevents, registrationEvent_eq_rejected_iff]

/-- What holds before a run holds at its end, by induction on the operations. -/
theorem history (h : r.AccountedBy log) (ops : List (Operation H)) :
    (r.after ops).AccountedBy (log ++ r.history ops) := by
  induction ops generalizing r log with
  | nil =>
      rw [Registry.history, performAll, List.flatMap_nil, List.append_nil]
      exact h
  | cons op ops ih =>
      rw [history_cons, after_cons, ← List.append_assoc]
      exact ih (h.perform op)

end AccountedBy

/-! ## Points of a run -/

theorem size_after_take (settings : Settings) (ops : List (Operation H)) (n : Nat) :
    ((fresh settings).after (ops.take n)).size =
      (Operation.registeredNames
        (ops.take (min n (Operation.sealingPoint settings ops)))).toFinset.card := by
  have hnames : ((fresh settings).after (ops.take n)).names.toFinset =
      (Operation.registeredNames
        (ops.take (min n (Operation.sealingPoint settings ops)))).toFinset := by
    ext name
    rw [List.mem_toFinset, List.mem_toFinset, names, NameTable.mem_names_iff, find?_after_take,
      Operation.isSome_latest?_iff]
  have hnodup : ((fresh settings).after (ops.take n)).names.Nodup := NameTable.nodup_names _
  rw [← hnames, List.toFinset_card_of_nodup hnodup]
  exact (NameTable.length_names _).symm

theorem seals_now_iff (settings : Settings) {ops : List (Operation H)} {i : Nat}
    {op : Operation H} (hop : ops[i]? = some op) :
    (!((fresh settings).after (ops.take i)).isSealed && op.seals settings) ↔
      i = Operation.sealingPoint settings ops := by
  obtain ⟨hi, rfl⟩ := List.getElem?_eq_some_iff.1 hop
  have hsealed := isSealed_after_take_iff settings (Nat.le_of_lt hi)
  rw [Bool.and_eq_true, Bool.not_eq_true', ← Bool.not_eq_true, hsealed]
  constructor
  · intro h
    by_contra hne
    have hlt : i < Operation.sealingPoint settings ops := by omega
    exact Bool.false_ne_true ((List.not_of_lt_findIdx hlt).symm.trans h.2)
  · rintro rfl
    exact ⟨Nat.lt_irrefl _, List.findIdx_getElem⟩

/-- At each point of a run the events so far account for the registry. The end of registration is
reported once, by the operation at the sealing point and with the number of names registered before
it. Each registration reports what has become of it, and no other operation reports such a thing. -/
theorem history_accounts (settings : Settings) (ops : List (Operation H)) :
    (∀ n, ((fresh settings).after (ops.take n)).AccountedBy
      ((fresh settings).history (ops.take n))) ∧
    ∀ i op, ops[i]? = some op → ∃ o, ((fresh settings).performAll ops)[i]? = some o ∧
      o.events.filterMap Event.sealed? =
        (if i = Operation.sealingPoint settings ops then
          [(Operation.registeredNames (ops.take i)).toFinset.card] else []) ∧
      (∀ name entry, op = .register name entry →
        ReportsRegistration ((fresh settings).after (ops.take i))
          ((fresh settings).history (ops.take i)) name entry o) ∧
      (op.registration? = none → ∀ e ∈ o.events, e.concernsTable → e.sealed?.isSome) := by
  have haccounted (n : Nat) : ((fresh settings).after (ops.take n)).AccountedBy
      ((fresh settings).history (ops.take n)) :=
    (AccountedBy.ofFresh settings).history (ops.take n)
  refine ⟨haccounted, ?_⟩
  intro i op hop
  refine ⟨((fresh settings).after (ops.take i)).perform op, ?_, ?_, ?_, ?_⟩
  · rw [getElem?_performAll, hop]
    rfl
  · rw [sealed?_perform, settings_after, settings_fresh, size_after_take]
    simp only [seals_now_iff settings hop]
    split
    · rename_i heq
      rw [Nat.min_eq_left (Nat.le_of_eq heq)]
    · rfl
  · rintro name entry rfl
    exact (haccounted i).reportsRegistration name entry
  · intro hnone e he htable
    obtain ⟨rest, hrest, hevents⟩ := events_perform_of_none _ hnone
    rw [hevents] at he
    rcases List.mem_append.1 he with he | he
    · split at he
      · obtain rfl := List.mem_singleton.1 he
        rfl
      · cases he
    · exact absurd htable (hrest e he)

end Registry

end CodegenRegistry
