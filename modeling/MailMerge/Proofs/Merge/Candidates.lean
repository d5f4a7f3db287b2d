/-
The records of a loop, told without going over them one by one. What the loop needs fails in a fixed
order, and before any record is given out: its table, the identity to leave out, and then the
identities of the whole table. After that it goes over the records that are not left out, as far as
the first one for which its condition cannot be evaluated. For a record that is left out the
condition is never looked at.
-/
import MailMerge.Merge.Turn
import MailMerge.Proofs.Data.Built
import MailMerge.Proofs.Merge.Others

namespace MailMerge.Merge

open MailMerge.Data MailMerge.Markup

namespace Turn

/-- What comes of what a loop does: the records that it gives out, and the error that ends it. -/
def outcome (turns : List Turn) : List Record × Option ResolutionError :=
  (turns.filterMap yielded?, turns.findSome? failure?)

section

variable (condition : Option (Record → Except ResolutionError Bool))

/-- What a condition says of a record. Without a condition every record is kept. -/
def verdict (record : Record) : Except ResolutionError Bool :=
  match condition with
  | none => .ok true
  | some holds => holds record

/-- All that is done at one record. -/
def turnsAt (record : Record) : List Turn :=
  (if condition.isSome then [asks record] else []) ++
    match verdict condition record with
    | .error e => [fails e]
    | .ok true => [yields record]
    | .ok false => []

/-- Whether the condition can be evaluated and holds. -/
def kept (record : Record) : Bool :=
  match verdict condition record with
  | .ok holds => holds
  | .error _ => false

/-- Why the condition cannot be evaluated. -/
def error? (record : Record) : Option ResolutionError :=
  match verdict condition record with
  | .ok _ => none
  | .error e => some e

/-- The records in front of the first one for which the condition cannot be evaluated. -/
def evaluated (records : List Record) : List Record :=
  records.takeWhile fun r => error? condition r = none

/-- The records that a loop comes to: these, and the one for which it fails. -/
def reached (records : List Record) : List Record :=
  evaluated condition records ++ (records.find? fun r => error? condition r ≠ none).toList

/-! ## Going over records -/

/-- A record that is left out is passed by, as if it did not stand in the table. -/
theorem along_excluded (excluded : Option String) (records : List Record) :
    along excluded condition records = along none condition (remaining excluded records) := by
  induction records with
  | nil => rfl
  | cons record rest ih =>
    rw [remaining_cons]
    by_cases hout : excluded.isSome ∧ record.id? = excluded
    · rw [if_pos hout, ← ih]
      cases condition <;> simp only [along, if_pos hout]
    · rw [if_neg hout]
      cases condition <;> simp [along, if_neg hout, ih]

theorem along_cons_of_error {record : Record} {e : ResolutionError}
    (h : verdict condition record = .error e) (rest : List Record) :
    along none condition (record :: rest) = turnsAt condition record := by
  cases condition with
  | none => cases h
  | some holds =>
    have hrecord : holds record = .error e := h
    simp [along, turnsAt, verdict, hrecord]

theorem along_cons_of_ok {record : Record} {holds : Bool}
    (h : verdict condition record = .ok holds) (rest : List Record) :
    along none condition (record :: rest) =
      turnsAt condition record ++ along none condition rest := by
  cases condition with
  | none => rfl
  | some test =>
    have hrecord : test record = .ok holds := h
    cases holds <;> simp [along, turnsAt, verdict, hrecord]

variable {condition} in
theorem error?_of_error {record : Record} {e : ResolutionError}
    (h : verdict condition record = .error e) : error? condition record = some e := by
  rw [error?, h]

variable {condition} in
theorem error?_of_ok {record : Record} {holds : Bool}
    (h : verdict condition record = .ok holds) : error? condition record = none := by
  rw [error?, h]

/-- A loop does at each record that it comes to what is to be done there, and nothing else. -/
theorem along_eq_flatMap (records : List Record) :
    along none condition records = (reached condition records).flatMap (turnsAt condition) := by
  induction records with
  | nil => rfl
  | cons record rest ih =>
    cases h : verdict condition record with
    | error e =>
      rw [along_cons_of_error condition h]
      simp [reached, evaluated, error?_of_error h]
    | ok holds =>
      rw [along_cons_of_ok condition h, ih]
      simp [reached, evaluated, error?_of_ok h]

variable {condition} in
theorem eq_of_asks_mem {record candidate : Record}
    (h : .asks candidate ∈ turnsAt condition record) : candidate = record := by
  rcases List.mem_append.1 h with h | h
  · split at h
    · simpa using h
    · cases h
  · cases hverdict : verdict condition record with
    | error e => simp [hverdict] at h
    | ok holds => cases holds <;> simp [hverdict] at h

variable {condition} in
theorem mem_of_reached {records : List Record} {record : Record}
    (h : record ∈ reached condition records) : record ∈ records := by
  rcases List.mem_append.1 h with h | h
  · exact (List.takeWhile_sublist _).subset h
  · exact List.mem_of_find?_eq_some (Option.mem_toList.1 h)

theorem outcome_append (turns more : List Turn) :
    outcome (turns ++ more) =
      ((outcome turns).1 ++ (outcome more).1, (outcome turns).2.or (outcome more).2) := by
  simp [outcome, List.findSome?_append]

theorem outcome_turnsAt (record : Record) :
    outcome (turnsAt condition record) =
      ([record].filter (kept condition), error? condition record) := by
  unfold turnsAt kept error?
  rw [outcome_append]
  split <;> cases h : verdict condition record with
  | error e => simp [h, outcome, List.filterMap_cons, List.findSome?_cons, yielded?, failure?]
  | ok holds =>
    cases holds <;>
      simp [h, outcome, List.filterMap_cons, List.findSome?_cons, yielded?, failure?]

/-- Of the records in front of the first one that fails those are given out that are kept. -/
theorem outcome_along (records : List Record) :
    outcome (along none condition records) =
      ((evaluated condition records).filter (kept condition),
        records.findSome? (error? condition)) := by
  induction records with
  | nil => rfl
  | cons record rest ih =>
    cases h : verdict condition record with
    | error e =>
      rw [along_cons_of_error condition h, outcome_turnsAt]
      simp [evaluated, kept, error?_of_error h, h]
    | ok holds =>
      rw [along_cons_of_ok condition h, outcome_append, outcome_turnsAt, ih]
      simp [evaluated, error?_of_ok h, ← List.filter_append]

end

/-! ## The turns of a loop -/

section

variable (name : String) (b : Binding) (record : Record) (scope : Scope) (d : Definition)

theorem verdict_condition (candidate : Record) :
    verdict (condition name b scope d) candidate = (accepts name b scope d candidate).result := by
  unfold verdict condition accepts
  cases b.condition? <;> rfl

theorem outcome_along_condition (records : List Record) :
    outcome (along none (condition name b scope d) records) =
      gather (accepts name b scope d) records := by
  induction records with
  | nil => rfl
  | cons candidate rest ih =>
    have hverdict := verdict_condition name b scope d candidate
    rw [gather]
    cases haccept : (accepts name b scope d candidate).result with
    | error e =>
      rw [haccept] at hverdict
      rw [along_cons_of_error _ hverdict, outcome_turnsAt]
      simp [kept, error?_of_error hverdict, hverdict]
    | ok holds =>
      rw [haccept] at hverdict
      rw [along_cons_of_ok _ hverdict, outcome_append, outcome_turnsAt, ih]
      cases holds <;> simp [kept, error?_of_ok hverdict, hverdict]

theorem loopRecords_eq_start :
    loopRecords b record scope d =
      (fun found => remaining found.2 found.1.records) <$> start b record scope d := by
  unfold loopRecords start
  rw [map_bind]
  congr 1
  funext table
  cases b.lookup? with
  | none => simp [remaining_none]
  | some lookup => simp [remaining_some]

/-- The records of a loop, and its error, are those that show in its turns. -/
theorem candidates_eq_outcome :
    candidates name b record scope d = outcome (ofLoop name b record scope d) := by
  unfold candidates ofLoop
  rw [loopRecords_eq_start, ← bind_pure_comp, Consulted.result_bind]
  cases (start b record scope d).result with
  | error e => rfl
  | ok found =>
    obtain ⟨table, excluded⟩ := found
    show gather (accepts name b scope d) (remaining excluded table.records) =
      outcome (along excluded (condition name b scope d) table.records)
    rw [along_excluded, outcome_along_condition]

/-! ## What a loop needs before it goes -/

variable {b d}

theorem start_of_unknownTable (h : d.table? b.table = none) :
    (start b record scope d).result = .error (.unknownTable b.table) := by
  rw [start, Consulted.result_bind, findTable, h]
  rfl

theorem start_of_plain {table : Table} (htable : d.table? b.table = some table)
    (hlookup : b.lookup? = none) : (start b record scope d).result = .ok (table, none) := by
  rw [start, findTable_of_table? htable, pure_bind, hlookup]
  rfl

/-- The identity to leave out is known first; then the whole table must have identities. -/
theorem start_of_lookup {table : Table} (hfresh : table.Fresh)
    (htable : d.table? b.table = some table) {lookup : Lookup} (hlookup : b.lookup? = some lookup) :
    (start b record scope d).result =
      pointedId lookup record scope >>= fun key =>
        checkIds table >>= fun _ => .ok (table, some key) := by
  rw [start, findTable_of_table? htable, pure_bind, hlookup]
  simp only [Consulted.result_bind, result_exclusionKey, result_find? hfresh, bind_assoc]
  rfl

end

end Turn

/-! ## The closed form -/

/-- The identity that a lookup points at, if there is one: that of the record that a loop has bound
to the key field, else the key that the driving record has in it. -/
def pointed? (lookup : Lookup) (record : Record) (scope : Scope) : Option String :=
  match scope.get? lookup.keyField with
  | some bound => bound.id?
  | none => record.get? lookup.keyField

/-- The field in which that identity is looked for. -/
def pointingField (lookup : Lookup) (scope : Scope) : String :=
  if scope.contains lookup.keyField then idField else lookup.keyField

theorem pointedId_eq (lookup : Lookup) (record : Record) (scope : Scope) :
    pointedId lookup record scope =
      match pointed? lookup record scope with
      | some key => .ok key
      | none => .error (.missingKey (pointingField lookup scope)) := by
  unfold pointedId pointed? pointingField Scope.contains keyIn Record.id?
  cases hbound : scope.get? lookup.keyField with
  | some bound => cases bound.get? idField <;> rfl
  | none => cases record.get? lookup.keyField <;> rfl

theorem checkIds_of_missing {table : Table} {before after : List Record} {record : Record}
    (hrecords : table.records = before ++ record :: after) (hbefore : ∀ r ∈ before, r.id? ≠ none)
    (hrecord : record.id? = none) :
    checkIds table = .error (.table (.recordWithoutId table.name (before.length + 1))) := by
  have hfind : table.records.findIdx? (·.id? = none) = some before.length := by
    rw [hrecords, List.findIdx?_append, List.findIdx?_eq_none_iff.2 (by simpa using hbefore)]
    simp [List.findIdx?_cons, hrecord]
  rw [checkIds, hfind]
  rfl

section

variable (name : String) (b : Binding) (record : Record) (scope : Scope) (d : Definition)

/-- A loop fails before it gives out a record, and before it looks at its condition. -/
structure Stops (e : ResolutionError) : Prop where
  found : candidates name b record scope d = ([], some e)
  turns : Turn.ofLoop name b record scope d = [.fails e]

/-- A loop goes over records in their order as far as the first one that fails. It looks at its
condition once for each of them, before it gives the record out or goes on. -/
structure GoesOver (records : List Record) : Prop where
  found : candidates name b record scope d =
    ((Turn.evaluated (Turn.condition name b scope d) records).filter
        (Turn.kept (Turn.condition name b scope d)),
      records.findSome? (Turn.error? (Turn.condition name b scope d)))
  turns : Turn.ofLoop name b record scope d =
    (Turn.reached (Turn.condition name b scope d) records).flatMap
      (Turn.turnsAt (Turn.condition name b scope d))

variable {b record scope d}

theorem stops_of_start {e : ResolutionError} (h : (Turn.start b record scope d).result = .error e) :
    Stops name b record scope d e := by
  have hturns : Turn.ofLoop name b record scope d = [.fails e] := by
    rw [Turn.ofLoop, h]
  exact ⟨by rw [Turn.candidates_eq_outcome, hturns]; rfl, hturns⟩

theorem goesOver_of_start {table : Table} {excluded : Option String}
    (h : (Turn.start b record scope d).result = .ok (table, excluded)) :
    GoesOver name b record scope d (remaining excluded table.records) := by
  have hturns : Turn.ofLoop name b record scope d =
      Turn.along none (Turn.condition name b scope d) (remaining excluded table.records) := by
    rw [Turn.ofLoop, h, ← Turn.along_excluded]
  exact ⟨by rw [Turn.candidates_eq_outcome, hturns, Turn.outcome_along],
    by rw [hturns, Turn.along_eq_flatMap]⟩

variable {name} in
theorem GoesOver.mem_of_asks {records : List Record} (h : GoesOver name b record scope d records)
    {r : Record} (hr : .asks r ∈ Turn.ofLoop name b record scope d) : r ∈ records := by
  rw [h.turns] at hr
  obtain ⟨candidate, hcandidate, hr⟩ := List.mem_flatMap.1 hr
  rw [Turn.eq_of_asks_mem hr]
  exact Turn.mem_of_reached hcandidate

end

/-- What a loop does, for every table. If there is no such table it stops. One that leaves a record
out stops where its lookup points at nothing, and then at the first record of the table without an
identity. Else it goes over the records, without those that have the identity that is left out; and
its condition is never looked at for these. -/
theorem candidates_closed {d : Definition} (h : d.Built) (name : String) (b : Binding)
    (record : Record) (scope : Scope) :
    (d.table? b.table = none → Stops name b record scope d (.unknownTable b.table)) ∧
    ∀ table, d.table? b.table = some table →
      (b.lookup? = none → GoesOver name b record scope d table.records) ∧
      ∀ lookup, b.lookup? = some lookup →
        (pointed? lookup record scope = none →
          Stops name b record scope d (.missingKey (pointingField lookup scope))) ∧
        ∀ key, pointed? lookup record scope = some key →
          (∀ before r after, table.records = before ++ r :: after →
            (∀ s ∈ before, s.id? ≠ none) → r.id? = none →
            Stops name b record scope d (.table (.recordWithoutId b.table (before.length + 1)))) ∧
          ((∀ r ∈ table.records, r.id? ≠ none) →
            GoesOver name b record scope d (table.records.filter (·.id? ≠ some key)) ∧
            ∀ r, .asks r ∈ Turn.ofLoop name b record scope d → r.id? ≠ some key) := by
  refine ⟨fun hunknown => ?_, ?_⟩
  · exact stops_of_start name (Turn.start_of_unknownTable record scope hunknown)
  intro table htable
  refine ⟨fun hplain => ?_, ?_⟩
  · have hover := goesOver_of_start name (Turn.start_of_plain record scope htable hplain)
    rwa [remaining_none] at hover
  intro lookup hlookup
  have hstart := Turn.start_of_lookup record scope (h.fresh.table? htable) htable hlookup
  rw [pointedId_eq] at hstart
  refine ⟨fun hnone => ?_, ?_⟩
  · rw [hnone] at hstart
    exact stops_of_start name hstart
  intro key hkey
  rw [hkey] at hstart
  refine ⟨?_, ?_⟩
  · intro before r after hrecords hbefore hr
    have hname : table.name = b.table := h.named _ (mem_of_valueOf? htable)
    rw [checkIds_of_missing hrecords hbefore hr, hname] at hstart
    exact stops_of_start name hstart
  · intro hids
    rw [checkIds_of_ids hids] at hstart
    have hover := goesOver_of_start name hstart
    rw [remaining_some] at hover
    refine ⟨hover, ?_⟩
    intro r hr
    simpa using (List.mem_filter.1 (hover.mem_of_asks hr)).2

/-- Two records share the identity that is left out, and neither is asked about. The loop gives one
record out before it comes to the one that has no such field. -/
theorem candidates_closed_shared :
    candidates "x" (.filteredOthers "p" ⟨"p", none⟩ ⟨⟨[], "n"⟩, .equal, .text "a"⟩) ⟨[("p", "1")]⟩
        .empty
        (.ofRecords [] [("p", [⟨[("$id", "1")]⟩, ⟨[("$id", "2"), ("n", "a")]⟩, ⟨[("$id", "1")]⟩,
          ⟨[("$id", "3"), ("n", "b")]⟩, ⟨[("$id", "4")]⟩, ⟨[("$id", "5"), ("n", "a")]⟩])]) =
      ([⟨[("$id", "2"), ("n", "a")]⟩], some (.missingField "n")) ∧
    Turn.ofLoop "x" (.filteredOthers "p" ⟨"p", none⟩ ⟨⟨[], "n"⟩, .equal, .text "a"⟩) ⟨[("p", "1")]⟩
        .empty
        (.ofRecords [] [("p", [⟨[("$id", "1")]⟩, ⟨[("$id", "2"), ("n", "a")]⟩, ⟨[("$id", "1")]⟩,
          ⟨[("$id", "3"), ("n", "b")]⟩, ⟨[("$id", "4")]⟩, ⟨[("$id", "5"), ("n", "a")]⟩])]) =
      [.asks ⟨[("$id", "2"), ("n", "a")]⟩, .yields ⟨[("$id", "2"), ("n", "a")]⟩,
        .asks ⟨[("$id", "3"), ("n", "b")]⟩, .asks ⟨[("$id", "4")]⟩,
        .fails (.missingField "n")] := by
  have hclosed := candidates_closed
    (Definition.built_ofRecords []
      [("p", [⟨[("$id", "1")]⟩, ⟨[("$id", "2"), ("n", "a")]⟩, ⟨[("$id", "1")]⟩,
        ⟨[("$id", "3"), ("n", "b")]⟩, ⟨[("$id", "4")]⟩, ⟨[("$id", "5"), ("n", "a")]⟩])])
    "x" (.filteredOthers "p" ⟨"p", none⟩ ⟨⟨[], "n"⟩, .equal, .text "a"⟩) ⟨[("p", "1")]⟩ .empty
  obtain ⟨hover, -⟩ := (((hclosed.2 _ rfl).2 _ rfl).2 "1" rfl).2 (by decide)
  exact ⟨hover.found, hover.turns⟩

end MailMerge.Merge
