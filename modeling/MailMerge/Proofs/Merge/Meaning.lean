/-
Merging a template gives what its nodes mean, errors included. Before any record was looked for, a
table answers from its records alone. The binding of a loop then leaves out the same record and
keeps the same ones as its tag, and each condition is still looked at only after the bodies of the
records in front of it.
-/
import MailMerge.Merge.Interpret
import MailMerge.Merge.Render
import MailMerge.Proofs.Data.Table

namespace MailMerge.Merge

open MailMerge.Data MailMerge.Markup

/-! ## Lookups -/

theorem result_readKey (record : Record) (field : String) :
    (readKey record field).result = keyIn record field := by
  unfold readKey keyIn
  cases record.get? field <;> rfl

theorem result_findTable (d : Definition) (name : String) :
    (findTable d name).result = tableNamed d name := by
  unfold findTable tableNamed
  cases d.table? name <;> rfl

theorem findTable_of_table? {d : Definition} {name : String} {table : Table}
    (h : d.table? name = some table) : findTable d name = pure table := by
  rw [findTable, h]

theorem tableNamed_of_table? {d : Definition} {name : String} {table : Table}
    (h : d.table? name = some table) : tableNamed d name = pure table := by
  rw [tableNamed, h]

theorem result_exclusionKey (lookup : Lookup) (record : Record) (scope : Scope) :
    (exclusionKey lookup record scope).result = pointedId lookup record scope := by
  unfold exclusionKey pointedId
  cases scope.get? lookup.keyField with
  | some bound => exact result_readKey bound idField
  | none => exact result_readKey record lookup.keyField

theorem fresh_of_tableNamed {d : Definition} (h : d.Fresh) {name : String} {table : Table}
    (ht : tableNamed d name = .ok table) : table.Fresh := by
  unfold tableNamed at ht
  cases hname : d.table? name with
  | none => rw [hname] at ht; cases ht
  | some t =>
    rw [hname] at ht
    cases ht
    exact h.table? hname

/-- Looking for a record fails where not all records have an identity, and nowhere else. -/
theorem result_find? {table : Table} (h : table.Fresh) (name key : String) :
    (Consulted.from? name (table.find? key)).result =
      checkIds table >>= fun _ => .ok (table.records.find? (·.id? = some key)) := by
  unfold Consulted.from? checkIds
  rw [h.find?_eq]
  cases table.records.findIdx? (·.id? = none) <;> rfl

theorem result_require {table : Table} (h : table.Fresh) (name key : String) :
    (Consulted.from? name (table.require key)).result =
      checkIds table >>= fun _ =>
        match table.records.find? (·.id? = some key) with
        | some record => .ok record
        | none => .error (.table (.noSuchRecord table.name key)) := by
  unfold Consulted.from? checkIds Table.require
  rw [h.find?_eq]
  cases table.records.findIdx? (·.id? = none) with
  | some i => rfl
  | none => cases table.records.find? (·.id? = some key) <;> rfl

/-- The records that a loop does not leave out. -/
def remaining (excluded : Option String) (records : List Record) : List Record :=
  records.filter fun r => ¬ (excluded.isSome ∧ r.id? = excluded)

theorem remaining_none (records : List Record) : remaining none records = records := by
  simp [remaining]

theorem remaining_some (key : String) (records : List Record) :
    remaining (some key) records = records.filter (·.id? ≠ some key) := by
  simp [remaining]

theorem remaining_cons (excluded : Option String) (record : Record) (rest : List Record) :
    remaining excluded (record :: rest) =
      if excluded.isSome ∧ record.id? = excluded then remaining excluded rest
      else record :: remaining excluded rest := by
  cases excluded with
  | none => simp [remaining]
  | some key => by_cases h : record.id? = some key <;> simp [remaining, h]

section

variable {d : Definition} (h : d.Fresh) (scope : Scope)

include h

theorem result_resolve (current : Record) (lookup : Lookup) :
    ((Resolution.of lookup scope).resolve current d).result = follow scope d current lookup := by
  unfold Resolution.of follow
  cases scope.get? lookup.keyField with
  | some bound => rfl
  | none =>
    simp only [Resolution.resolve, Consulted.result_bind, result_readKey, result_findTable]
    cases keyIn current lookup.keyField with
    | error e => rfl
    | ok key =>
      cases htable : tableNamed d lookup.table with
      | error e => rfl
      | ok table => exact result_require (fresh_of_tableNamed h htable) lookup.table key

theorem result_resolvePath (path : List Lookup) (start : Record) :
    (resolvePath path start scope d).result = path.foldlM (follow scope d) start := by
  unfold resolvePath
  induction path generalizing start with
  | nil => rfl
  | cons lookup path ih =>
    rw [List.foldlM_cons, List.foldlM_cons, Consulted.result_bind, result_resolve h]
    congr 1
    funext record
    exact ih record

/-! ## Fields -/

theorem result_expand (e : Expansion) (start : Record) :
    (expand e start scope d).result = textAt e start scope d := by
  unfold expand textAt
  rw [Consulted.result_bind, result_resolvePath h]
  congr 1
  funext record
  cases record.get? e.field <;> rfl

theorem result_compare (c : Comparison) (start : Record) :
    (compare c start scope d).result = holdsAt c start scope d := by
  unfold compare holdsAt
  rw [Consulted.result_bind, result_expand h]
  congr 1
  funext text
  cases c.op.holds text c.literal <;> rfl

/-! ## Loops -/

theorem result_accepts (head : LoopHead) (candidate : Record) :
    (accepts head.name (.ofHead head) scope d candidate).result = keeps head candidate scope d := by
  obtain ⟨name, lookup, condition, other⟩ := head
  cases other <;> cases condition <;> first | rfl | exact result_compare h _ _ _

/-- The records of a loop are those of its table without the one that is left out. -/
theorem result_loopRecords (head : LoopHead) (record : Record) :
    (loopRecords (.ofHead head) record scope d).result =
      tableNamed d head.lookup.table >>= fun table =>
        excludedId head table record scope >>= fun excluded =>
          .ok (remaining excluded table.records) := by
  obtain ⟨name, lookup, condition, other⟩ := head
  have htable : (Binding.ofHead ⟨name, lookup, condition, other⟩).table = lookup.table := by
    cases other <;> cases condition <;> rfl
  have hlookup : (Binding.ofHead ⟨name, lookup, condition, other⟩).lookup? =
      if other then some lookup else none := by
    cases other <;> cases condition <;> rfl
  unfold loopRecords
  rw [Consulted.result_bind, result_findTable, htable, hlookup]
  cases hnamed : tableNamed d lookup.table with
  | error e => rfl
  | ok table =>
    have hfind := result_find? (fresh_of_tableNamed h hnamed) lookup.table
    unfold excludedId
    cases other with
    | false => exact congrArg Except.ok (remaining_none table.records).symm
    | true =>
      -- The key comes first, then the identities of the whole table, then the records.
      show Consulted.result (exclusionKey lookup record scope >>= _) = _
      rw [Consulted.result_bind, result_exclusionKey]
      show (pointedId lookup record scope >>= _) =
        (pointedId lookup record scope >>= fun key =>
          checkIds table >>= fun _ => .ok (some key)) >>= _
      cases pointedId lookup record scope with
      | error e => rfl
      | ok key =>
        show Consulted.result (Consulted.from? lookup.table (table.find? key) >>= _) = _
        rw [Consulted.result_bind, hfind]
        cases checkIds table with
        | error e => rfl
        | ok _ => exact congrArg Except.ok (remaining_some key table.records).symm

end

/-- A condition is looked at only after the bodies of the records in front of it, in the one as in
the other. -/
theorem result_renderEach {accept : Record → Consulted Bool} {body : Record → Consulted String}
    {keep : Record → Except ResolutionError Bool} {meaning : Record → Except ResolutionError String}
    (haccept : ∀ r, (accept r).result = keep r) (hbody : ∀ r, (body r).result = meaning r)
    (excluded : Option String) (records : List Record) :
    (renderEach accept body (remaining excluded records)).result =
      forEach excluded keep meaning records := by
  induction records with
  | nil => rfl
  | cons record rest ih =>
    rw [remaining_cons, forEach]
    split
    · exact ih
    · rw [renderEach]
      simp only [Consulted.result_bind, haccept]
      cases keep record with
      | error e => rfl
      | ok kept =>
        cases kept with
        | true =>
          -- The text of this record comes before the next one is asked about.
          show Consulted.result (body record >>= fun text =>
            renderEach accept body (remaining excluded rest) >>= fun more => pure (text ++ more)) = _
          rw [Consulted.result_bind, hbody]
          simp only [Consulted.result_bind, ih]
          rfl
        | false =>
          show Consulted.result (renderEach accept body (remaining excluded rest) >>= fun more =>
            pure ("" ++ more)) = _
          simp only [Consulted.result_bind, ih, String.empty_append]
          exact bind_pure _

/-! ## Nodes -/

mutual

theorem result_renderPiece {d : Definition} (h : d.Fresh) (record : Record) :
    ∀ (node : Node) (scope : Scope),
      (renderPiece record d (Piece.ofNode node) scope).result = interpret record d node scope
  | .text value, scope => by
    rw [Piece.ofNode, renderPiece, interpret]
    rfl
  | .expansion e, scope => by
    rw [Piece.ofNode, renderPiece, interpret]
    exact result_expand h scope e record
  | .block (.conditional test) body, scope => by
    rw [Piece.ofNode, renderPiece, interpret, Consulted.result_bind, result_compare h]
    congr 1
    funext holds
    cases holds with
    | true => exact result_renderPieces h record body scope
    | false => rfl
  | .block (.loop head) body, scope => by
    rw [Piece.ofNode, renderPiece, interpret, Consulted.result_bind, result_loopRecords h, bind_assoc]
    congr 1
    funext table
    rw [bind_assoc]
    congr 1
    funext excluded
    exact result_renderEach (result_accepts h scope head)
      (fun candidate => result_renderPieces h record body (scope.bind head.name candidate))
      excluded table.records

theorem result_renderPieces {d : Definition} (h : d.Fresh) (record : Record) :
    ∀ (nodes : List Node) (scope : Scope),
      (renderPieces record d (Piece.ofNodes nodes) scope).result = interpretAll record d nodes scope
  | [], scope => by
    rw [Piece.ofNodes, renderPieces, interpretAll]
    rfl
  | node :: nodes, scope => by
    rw [Piece.ofNodes, renderPieces, interpretAll, Consulted.result_bind,
      result_renderPiece h record node scope]
    congr 1
    funext text
    rw [Consulted.result_bind, result_renderPieces h record nodes scope]
    rfl

end

/-- Merging a template that was made ready gives what its nodes mean, or the same error. -/
theorem result_render {d : Definition} (h : d.Fresh) (nodes : List Node) (source : String)
    (record : Record) :
    ((⟨Piece.ofNodes nodes, source⟩ : Template).render record d).result =
      interpretAll record d nodes .empty :=
  result_renderPieces h record nodes .empty

/-- A loop over the others leaves out the record that its lookup points at. -/
theorem result_render_others :
    ((⟨Piece.ofNodes [.block (.loop ⟨"x", ⟨"p", none⟩, none, true⟩)
        [.expansion ⟨[⟨"p", some "x"⟩], "name"⟩]], ""⟩ : Template).render ⟨[("p", "1")]⟩
      (.ofRecords [] [("p", [⟨[("$id", "1"), ("name", "Ann")]⟩,
        ⟨[("$id", "2"), ("name", "Bob")]⟩])])).result = .ok "Bob" := by
  rw [result_render (Definition.fresh_ofRecords _ _)]
  rfl

end MailMerge.Merge
