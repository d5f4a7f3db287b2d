/-
A loop over the others leaves out the record that its lookup points at. The identity to leave out is
found on a way of its own, without following the lookup; where all records of the table have an
identity it is nevertheless that of the record to which the lookup leads.
-/
import MailMerge.Proofs.Merge.Meaning

namespace MailMerge

/-- Texts differ where they are not equal, which can always be decided. -/
theorem Comparator.notEqual_holds_text (field text : String) :
    notEqual.holds field (.text text) = .ok (decide (field ≠ text)) := by
  have hcompare : Literal.compare? (.text field) (.text text) = some (compare field text) := rfl
  show Except.ok (notEqual.accepts (Literal.compare? (.text field) (.text text))) = _
  rw [hcompare]
  simp [accepts]

end MailMerge

namespace MailMerge.Merge

open MailMerge.Data MailMerge.Markup

/-- Where the question never fails the accepted records are found without an error. -/
theorem gather_eq_filter {accept : Record → Consulted Bool} {keep : Record → Bool}
    {records : List Record} (h : ∀ r ∈ records, (accept r).result = .ok (keep r)) :
    gather accept records = (records.filter keep, none) := by
  induction records with
  | nil => rfl
  | cons record rest ih =>
    rw [List.forall_mem_cons] at h
    rw [gather, h.1]
    cases hkeep : keep record <;> simp [hkeep, ih h.2]

/-! ## The record that a lookup points at -/

theorem keyIn_of_get? {record : Record} {field key : String} (h : record.get? field = some key) :
    keyIn record field = .ok key := by
  rw [keyIn, h]
  rfl

theorem textAt_id (lookup : Lookup) (record : Record) (scope : Scope) (d : Definition) :
    textAt ⟨[lookup], idField⟩ record scope d =
      match follow scope d record lookup with
      | .error e => .error e
      | .ok found =>
        match found.id? with
        | some id => .ok id
        | none => .error (.missingField idField) := by
  unfold textAt
  rw [List.foldlM_cons]
  cases follow scope d record lookup <;> rfl

section

variable {d : Definition} {lookup : Lookup} {table : Table} {scope : Scope}

theorem follow_of_bound {bound : Record} (h : scope.get? lookup.keyField = some bound)
    (record : Record) : follow scope d record lookup = .ok bound := by
  rw [follow, h]
  rfl

theorem checkIds_of_ids (h : ∀ r ∈ table.records, r.id? ≠ none) : checkIds table = pure () := by
  have hfind : table.records.findIdx? (·.id? = none) = none := by
    simpa using h
  rw [checkIds, hfind]

/-- Where no loop has bound the key field, the lookup leads to the first record with the key. -/
theorem follow_of_key (hbound : scope.get? lookup.keyField = none)
    (htable : d.table? lookup.table = some table) (hids : ∀ r ∈ table.records, r.id? ≠ none)
    {record : Record} {key : String} (hkey : record.get? lookup.keyField = some key) :
    follow scope d record lookup =
      match table.records.find? (·.id? = some key) with
      | some found => .ok found
      | none => .error (.table (.noSuchRecord table.name key)) := by
  have hread : keyIn record lookup.keyField = pure key := keyIn_of_get? hkey
  simp only [follow, hbound, hread, tableNamed_of_table? htable, checkIds_of_ids hids, pure_bind]
  cases table.records.find? (·.id? = some key) <;> rfl

theorem follow_of_missingKey (hbound : scope.get? lookup.keyField = none) {record : Record}
    (hkey : record.get? lookup.keyField = none) :
    follow scope d record lookup = .error (.missingKey lookup.keyField) := by
  rw [follow, hbound, keyIn, hkey]
  rfl

/-- Following a lookup to the identity of its record gives the identity to leave out, or finds that
no record has it; every other error comes before any record is looked for. -/
theorem textAt_id_cases (htable : d.table? lookup.table = some table)
    (hids : ∀ r ∈ table.records, r.id? ≠ none) (record : Record) :
    (∃ id, textAt ⟨[lookup], idField⟩ record scope d = .ok id ∧
      pointedId lookup record scope = .ok id) ∨
    (∃ key, textAt ⟨[lookup], idField⟩ record scope d =
        .error (.table (.noSuchRecord table.name key)) ∧
      pointedId lookup record scope = .ok key ∧ ∀ r ∈ table.records, r.id? ≠ some key) ∨
    (∃ e, textAt ⟨[lookup], idField⟩ record scope d = .error e ∧ ∀ fault, e ≠ .table fault) := by
  rw [textAt_id]
  cases hbound : scope.get? lookup.keyField with
  | some bound =>
    -- The record that a loop has bound may be of any table: its identity is not looked up.
    have hpointed : pointedId lookup record scope = keyIn bound idField := by
      rw [pointedId, hbound]
    rw [follow_of_bound hbound, hpointed]
    cases hid : bound.id? with
    | some id => exact .inl ⟨id, by simp only [hid], keyIn_of_get? hid⟩
    | none => exact .inr (.inr ⟨.missingField idField, by simp only [hid], nofun⟩)
  | none =>
    have hpointed : pointedId lookup record scope = keyIn record lookup.keyField := by
      rw [pointedId, hbound]
    cases hkey : record.get? lookup.keyField with
    | none =>
      rw [follow_of_missingKey hbound hkey]
      exact .inr (.inr ⟨_, rfl, by simp⟩)
    | some key =>
      rw [follow_of_key hbound htable hids hkey, hpointed, keyIn_of_get? hkey]
      cases hfind : table.records.find? (·.id? = some key) with
      | some found =>
        -- Being found by the key, the record has it as its identity.
        have hid : found.id? = some key := by
          simpa using List.find?_some hfind
        exact .inl ⟨key, by simp only [hid], rfl⟩
      | none =>
        refine .inr (.inl ⟨key, rfl, rfl, ?_⟩)
        simpa using hfind

/-! ## The records of a loop -/

theorem candidates_others (h : d.Fresh) (htable : d.table? lookup.table = some table)
    (hids : ∀ r ∈ table.records, r.id? ≠ none) {record : Record} {key : String}
    (hkey : pointedId lookup record scope = .ok key) (name : String) :
    candidates name (.ofHead ⟨name, lookup, none, true⟩) record scope d =
      (table.records.filter (·.id? ≠ some key), none) := by
  have hrecords : (loopRecords (.ofHead ⟨name, lookup, none, true⟩) record scope d).result =
      .ok (table.records.filter (·.id? ≠ some key)) := by
    have hread : pointedId lookup record scope = pure key := hkey
    rw [result_loopRecords h]
    simp only [tableNamed_of_table? htable, excludedId, hread, checkIds_of_ids hids, if_true,
      pure_bind, remaining_some]
  unfold candidates
  rw [hrecords]
  show gather (fun _ => pure true) (table.records.filter (·.id? ≠ some key)) = _
  exact (gather_eq_filter fun _ _ => rfl).trans (by simp)

/-- The comparison that leaves out the records with an identity. -/
theorem result_compare_id {candidate : Record} (hid : candidate.id? ≠ none) (key : String)
    (scope : Scope) (d : Definition) :
    (compare ⟨⟨[], idField⟩, .notEqual, .text key⟩ candidate scope d).result =
      .ok (decide (candidate.id? ≠ some key)) := by
  obtain ⟨id, hid⟩ := Option.ne_none_iff_exists'.1 hid
  have hget : candidate.get? idField = some id := hid
  simp only [compare, expand, resolvePath, List.foldlM_nil, pure_bind, hget,
    Comparator.notEqual_holds_text, Consulted.result_pure]
  simp [hid]

theorem candidates_where_id (name : String) (htable : d.table? lookup.table = some table)
    (hids : ∀ r ∈ table.records, r.id? ≠ none) (record : Record) (key : String) :
    candidates name
        (.ofHead ⟨name, ⟨lookup.table, none⟩, some ⟨⟨[], idField⟩, .notEqual, .text key⟩, false⟩)
        record scope d =
      (table.records.filter (·.id? ≠ some key), none) := by
  have hrecords : loopRecords
      (.ofHead ⟨name, ⟨lookup.table, none⟩, some ⟨⟨[], idField⟩, .notEqual, .text key⟩, false⟩)
      record scope d = pure table.records := by
    simp only [loopRecords, Binding.table_ofHead, Binding.lookup?_ofHead,
      findTable_of_table? htable, pure_bind]
    rfl
  unfold candidates
  rw [hrecords]
  exact gather_eq_filter fun r hr => result_compare_id (hids r hr) key _ d

end

/-- A loop over the others of a lookup goes through the records of its table without those that
have the identity of the record to which the lookup leads, as the loop does whose condition leaves
this identity out; and where the lookup leads to no record, it goes through all of them. -/
theorem others_leave_out_pointed {d : Definition} (h : d.Fresh) (lookup : Lookup) {table : Table}
    (htable : d.table? lookup.table = some table) (hids : ∀ r ∈ table.records, r.id? ≠ none)
    (name : String) (record : Record) (scope : Scope) :
    (∀ id, (expand ⟨[lookup], idField⟩ record scope d).result = .ok id →
      (exclusionKey lookup record scope).result = .ok id ∧
      candidates name (.ofHead ⟨name, lookup, none, true⟩) record scope d =
        candidates name
          (.ofHead ⟨name, ⟨lookup.table, none⟩, some ⟨⟨[], idField⟩, .notEqual, .text id⟩, false⟩)
          record scope d ∧
      candidates name (.ofHead ⟨name, lookup, none, true⟩) record scope d =
        (table.records.filter (·.id? ≠ some id), none)) ∧
    ∀ key, (expand ⟨[lookup], idField⟩ record scope d).result =
        .error (.table (.noSuchRecord table.name key)) →
      candidates name (.ofHead ⟨name, lookup, none, true⟩) record scope d =
        (table.records, none) := by
  rw [result_expand h, result_exclusionKey]
  rcases textAt_id_cases htable hids record with
    ⟨id, htext, hpointed⟩ | ⟨key, htext, hpointed, hnone⟩ | ⟨e, htext, he⟩
  · rw [htext]
    refine ⟨?_, nofun⟩
    intro v hv
    cases hv
    have hothers := candidates_others h htable hids hpointed name
    exact ⟨hpointed, by rw [hothers, candidates_where_id name htable hids], hothers⟩
  · rw [htext]
    refine ⟨nofun, ?_⟩
    intro key' hkey
    rw [candidates_others h htable hids hpointed name]
    congr 1
    simpa using hnone
  · rw [htext]
    refine ⟨nofun, ?_⟩
    intro key hkey
    cases hkey
    exact absurd rfl (he _)

/-- Two records share the identity that the lookup finds, and both are left out; no record has the
identity `9`. -/
theorem others_leave_out_pointed_shared :
    candidates "x" (.ofHead ⟨"x", ⟨"p", some "k"⟩, none, true⟩) ⟨[("k", "1")]⟩ .empty
        (.ofRecords [] [("p", [⟨[("$id", "1")]⟩, ⟨[("$id", "2")]⟩, ⟨[("$id", "1")]⟩])]) =
      ([⟨[("$id", "2")]⟩], none) ∧
    candidates "x" (.ofHead ⟨"x", ⟨"p", some "k"⟩, none, true⟩) ⟨[("k", "9")]⟩ .empty
        (.ofRecords [] [("p", [⟨[("$id", "1")]⟩, ⟨[("$id", "2")]⟩, ⟨[("$id", "1")]⟩])]) =
      ([⟨[("$id", "1")]⟩, ⟨[("$id", "2")]⟩, ⟨[("$id", "1")]⟩], none) := by
  have hothers (key : String) :=
    others_leave_out_pointed
      (Definition.fresh_ofRecords []
        [("p", [⟨[("$id", "1")]⟩, ⟨[("$id", "2")]⟩, ⟨[("$id", "1")]⟩])])
      ⟨"p", some "k"⟩ rfl (by decide) "x" ⟨[("k", key)]⟩ .empty
  exact ⟨((hothers "1").1 "1" rfl).2.2, (hothers "9").2 "9" rfl⟩

end MailMerge.Merge
