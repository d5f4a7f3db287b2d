/-
Indexes that are kept from one call to the next do not show in what the calls give. Keeping them in
the middle of a rendering comes to the same as keeping them at its end, since no look for a record
is answered differently afterwards; and a table whose index is up to date answers like one that was
built anew.
-/
import MailMerge.Merge.Keeping
import MailMerge.Proofs.Merge.Locality
import MailMerge.Proofs.Merge.Meaning

namespace MailMerge.Merge

open MailMerge.Data MailMerge.Markup

/-! ## Keeping on the way -/

/-- After an error nothing more is done, and what was done until then stays. -/
theorem run_bind {ε σ α β : Type} (x : ExceptT ε (StateM σ) α) (f : α → ExceptT ε (StateM σ) β)
    (s : σ) :
    (x >>= f).run.run s =
      match x.run.run s with
      | (.ok a, s) => (f a).run.run s
      | (.error e, s) => (.error e, s) := by
  show (x.run >>= ExceptT.bindCont f).run s = _
  rw [StateT.run_bind]
  rcases x.run.run s with ⟨result, s⟩
  cases result <;> rfl

/-- What keeps indexes on the way gives the answer that is given with no regard to them, and leaves
the indexes of the tables that were consulted. Indexes kept before do not change the answer. -/
structure Keeping.Follows {α : Type} (x : Keeping α) (y : Definition → Consulted α) : Prop where
  run : ∀ d, x.run.run d = ((y d).result, d.keepIndexes (y d).tables)
  steady : ∀ d names, y (d.keepIndexes names) = y d

namespace Keeping

section

variable {α β : Type}

theorem follows_pure (a : α) : Follows (pure a) fun _ => pure a := by
  refine ⟨?_, fun _ _ => rfl⟩
  intro d
  exact congrArg (Prod.mk _) d.keepIndexes_nil.symm

theorem follows_throw (e : ResolutionError) :
    Follows (throw e : Keeping α) fun _ => Consulted.fail e := by
  refine ⟨?_, fun _ _ => rfl⟩
  intro d
  exact congrArg (Prod.mk _) d.keepIndexes_nil.symm

/-- A step that consults no table. -/
theorem follows_lift {x : Except ResolutionError α} {y : Consulted α} (hresult : y.result = x)
    (htables : y.tables = []) : Follows (liftM x) fun _ => y := by
  refine ⟨?_, fun _ _ => rfl⟩
  intro d
  rw [hresult, htables, d.keepIndexes_nil]
  cases x <;> rfl

theorem Follows.bind {x : Keeping α} {y : Definition → Consulted α} (h : Follows x y)
    {f : α → Keeping β} {g : α → Definition → Consulted β} (hfg : ∀ a, Follows (f a) (g a)) :
    Follows (x >>= f) fun d => y d >>= fun a => g a d := by
  refine ⟨?_, ?_⟩
  · intro d
    rw [run_bind, h.run]
    cases hy : (y d).result with
    | error e => simp [Bind.bind, Consulted.bind, hy]
    | ok a =>
      -- The second step sees the indexes that the first one left, to no effect.
      simp only [(hfg a).run, (hfg a).steady, Bind.bind, Consulted.bind, hy,
        Definition.keepIndexes_append]
  · intro d names
    simp only [h.steady, (hfg _).steady]

theorem follows_ask (name : String) (answer : Except TableFault α) :
    Follows (ask name answer) fun _ => Consulted.from? name answer := by
  refine ⟨?_, fun _ _ => rfl⟩
  intro d
  cases answer <;> rfl

/-- The table that is found may have kept an index before, as long as that makes no difference. -/
theorem follows_findTable {name : String} {f : Table → Keeping α}
    {g : Table → Definition → Consulted α} (hfg : ∀ t, Follows (f t) (g t))
    (hkept : ∀ t, g t.keepIndex = g t) :
    Follows (findTable name >>= f) fun d => Merge.findTable d name >>= fun t => g t d := by
  refine ⟨?_, ?_⟩
  · intro d
    have hfind : (findTable name >>= f).run.run d =
        (liftM (tableNamed d name) >>= f : Keeping α).run.run d := rfl
    rw [hfind]
    have htables : (Merge.findTable d name).tables = [] := by
      unfold Merge.findTable
      cases d.table? name <;> rfl
    exact ((follows_lift (result_findTable d name) htables).bind hfg).run d
  · intro d names
    simp only [Merge.findTable, Definition.table?_keepIndexes]
    cases d.table? name with
    | none => rfl
    | some t =>
      show g (if name ∈ names then t.keepIndex else t) (d.keepIndexes names) = g t d
      rw [(hfg _).steady]
      split
      · rw [hkept]
      · rfl

end

/-! ## Lookups and fields -/

theorem follows_keyIn (record : Record) (field : String) :
    Follows (liftM (keyIn record field)) fun _ => readKey record field := by
  apply follows_lift (result_readKey record field)
  unfold readKey
  cases record.get? field <;> rfl

theorem follows_pointedId (lookup : Lookup) (record : Record) (scope : Scope) :
    Follows (liftM (pointedId lookup record scope)) fun _ => exclusionKey lookup record scope := by
  unfold pointedId exclusionKey
  cases scope.get? lookup.keyField with
  | some bound => exact follows_keyIn bound idField
  | none => exact follows_keyIn record lookup.keyField

theorem follows_resolve (lookup : Lookup) (scope : Scope) (current : Record) :
    Follows (resolve lookup scope current) ((Resolution.of lookup scope).resolve current) := by
  unfold resolve Resolution.of
  cases scope.get? lookup.keyField with
  | some bound => exact follows_pure bound
  | none =>
    refine (follows_keyIn current lookup.keyField).bind fun key => ?_
    apply follows_findTable
    · intro t
      exact follows_ask lookup.table (t.require key)
    · intro t
      rw [t.require_keepIndex]

theorem follows_path (path : List Lookup) (scope : Scope) (start : Record) :
    Follows (path.foldlM (fun current lookup => resolve lookup scope current) start)
      (resolvePath path start scope) := by
  unfold resolvePath
  induction path generalizing start with
  | nil => exact follows_pure start
  | cons lookup path ih => exact (follows_resolve lookup scope start).bind ih

theorem follows_expand (e : Expansion) (start : Record) (scope : Scope) :
    Follows (expand e start scope) (Merge.expand e start scope) := by
  refine (follows_path e.path scope start).bind fun record => ?_
  cases record.get? e.field with
  | some text => exact follows_pure text
  | none => exact follows_throw _

theorem follows_compare (c : Comparison) (start : Record) (scope : Scope) :
    Follows (compare c start scope) (Merge.compare c start scope) := by
  refine (follows_expand c.subject start scope).bind fun text => ?_
  cases c.op.holds text c.literal with
  | ok holds => exact follows_pure holds
  | error fault => exact follows_throw _

/-! ## Loops -/

theorem follows_loopRecords (binding : Binding) (record : Record) (scope : Scope) :
    Follows (loopRecords binding record scope) (Merge.loopRecords binding record scope) := by
  apply follows_findTable
  · intro t
    cases binding.lookup? with
    | none => exact follows_pure t.records
    | some lookup =>
      refine (follows_pointedId lookup record scope).bind fun key => ?_
      exact (follows_ask binding.table (t.find? key)).bind fun _ => follows_pure _
  · intro t
    simp only [t.find?_keepIndex, t.records_keepIndex]

theorem follows_accepts (name : String) (binding : Binding) (scope : Scope) (candidate : Record) :
    Follows (accepts name binding scope candidate)
      fun d => Merge.accepts name binding scope d candidate := by
  unfold accepts Merge.accepts
  cases binding.condition? with
  | none => exact follows_pure true
  | some c => exact follows_compare c candidate _

theorem follows_renderEach {accept : Record → Keeping Bool} {body : Record → Keeping String}
    {accept' : Definition → Record → Consulted Bool}
    {body' : Definition → Record → Consulted String}
    (haccept : ∀ r, Follows (accept r) (accept' · r)) (hbody : ∀ r, Follows (body r) (body' · r))
    (records : List Record) :
    Follows (renderEach accept body records)
      fun d => Merge.renderEach (accept' d) (body' d) records := by
  induction records with
  | nil => exact follows_pure ""
  | cons record rest ih =>
    refine (haccept record).bind fun accepted => ?_
    -- The rest is asked about the indexes that this record left, whether it was kept or not.
    have hrest (text : String) := ih.bind fun more => follows_pure (text ++ more)
    cases accepted with
    | true => exact (hbody record).bind hrest
    | false => exact (follows_pure "").bind hrest

/-! ## Pieces -/

mutual

theorem follows_renderPiece (record : Record) :
    ∀ (piece : Piece) (scope : Scope),
      Follows (renderPiece record piece scope) (Merge.renderPiece record · piece scope)
  | .text value, scope => by
    simp only [renderPiece, Merge.renderPiece]
    exact follows_pure value
  | .expansion e, scope => by
    simp only [renderPiece, Merge.renderPiece]
    exact follows_expand e record scope
  | .conditional test body, scope => by
    simp only [renderPiece, Merge.renderPiece]
    refine (follows_compare test record scope).bind fun holds => ?_
    cases holds with
    | true => exact follows_renderPieces record body scope
    | false => exact follows_pure ""
  | .loop name binding body, scope => by
    simp only [renderPiece, Merge.renderPiece]
    refine (follows_loopRecords binding record scope).bind fun records => ?_
    exact follows_renderEach (follows_accepts name binding scope)
      (fun candidate => follows_renderPieces record body (scope.bind name candidate)) records

theorem follows_renderPieces (record : Record) :
    ∀ (pieces : List Piece) (scope : Scope),
      Follows (renderPieces record pieces scope) (Merge.renderPieces record · pieces scope)
  | [], scope => by
    simp only [renderPieces, Merge.renderPieces]
    exact follows_pure ""
  | piece :: pieces, scope => by
    simp only [renderPieces, Merge.renderPieces]
    refine (follows_renderPiece record piece scope).bind fun text => ?_
    exact (follows_renderPieces record pieces scope).bind fun more => follows_pure (text ++ more)

end

/-- Keeping indexes on the way to an output comes to the same as keeping them at its end. -/
theorem follows_render (t : Template) (record : Record) :
    Follows (renderPieces record t.pieces .empty) (t.render record ·) :=
  follows_renderPieces record t.pieces .empty

/-! ## Batches -/

theorem ofRecords_congr {t : Template} {d d' : Definition}
    (h : ∀ record, t.render record d = t.render record d') (row : Nat) (records : List Record) :
    Batch.ofRecords t d row records = Batch.ofRecords t d' row records := by
  induction records generalizing row with
  | nil => rfl
  | cons record rest ih => simp only [Batch.ofRecords, h, ih]

theorem run_renderRows (t : Template) (row : Nat) (records : List Record) (d : Definition) :
    (renderRows t row records).run.run d =
      ((Batch.ofRecords t d row records).result,
        d.keepIndexes (Batch.ofRecords t d row records).tables) := by
  induction records generalizing row d with
  | nil => exact congrArg (Prod.mk _) d.keepIndexes_nil.symm
  | cons record rest ih =>
    have hrow : ((renderPieces record t.pieces .empty).adapt (RenderError.mk row)).run.run d =
        ((t.render record d).result.mapError (RenderError.mk row),
          d.keepIndexes (t.render record d).tables) :=
      congrArg (Prod.map (Except.mapError (RenderError.mk row)) id) ((follows_render t record).run d)
    rw [renderRows, run_bind, hrow, Batch.ofRecords]
    cases (t.render record d).result with
    | error e => rfl
    | ok text =>
      -- The rows behind this one see the indexes that it left.
      have hsteady :=
        ofRecords_congr (fun r => (follows_render t r).steady d (t.render record d).tables)
          (row + 1) rest
      show (renderRows t (row + 1) rest >>= fun texts => pure (text :: texts)).run.run
        (d.keepIndexes (t.render record d).tables) = _
      rw [run_bind, ih, hsteady, ← Definition.keepIndexes_append]
      unfold Batch.result
      cases (Batch.ofRecords t d (row + 1) rest).failure <;> rfl

end Keeping

/-! ## Calls -/

theorem Call.run_keeping (c : Call) (d : Definition) :
    c.keeping.run d = (c.outcome d, d.keepIndexes (c.consulted d)) := by
  cases c with
  | render t record name =>
    exact congrArg (Prod.map Outcome.text id) ((Keeping.follows_render t record).run d)
  | renderAll t name =>
    exact congrArg (Prod.map Outcome.texts id) (Keeping.run_renderRows t 1 d.vars.records d)

/-- What a call gives is what it gives on a definition built anew. -/
theorem Call.outcome_rebuilt (c : Call) {d : Definition} (h : d.UpToDate) :
    c.outcome d.rebuilt = c.outcome d := by
  have hrender (t : Template) (record : Record) : t.render record d.rebuilt = t.render record d :=
    (renderPieces_congr record t.pieces (fun l _ => ⟨h.alikeAt_rebuilt l.table, rfl⟩)
      fun name _ => h.alikeAt_rebuilt name).symm
  cases c with
  | render t record name => exact congrArg (Outcome.text ·.result) (hrender t record)
  | renderAll t name =>
    have hvars : d.rebuilt.vars.records = d.vars.records := Table.records_ofRecords _ _
    have hbatch := Keeping.ofRecords_congr (hrender t) 1 d.vars.records
    show Outcome.texts (Batch.ofRecords t d.rebuilt 1 d.rebuilt.vars.records).result = _
    rw [hvars, hbatch]
    rfl

/-! ## Sessions -/

namespace Session

theorem definition_define (s : Session) (name : String) (d : Definition) (other : String) :
    (s.define name d).definition other = if other = name then d else s.definition other := by
  unfold definition define
  rw [valueOf?_setValue]
  split <;> rfl

/-- No definition keeps an index that is out of date. -/
def UpToDate (s : Session) : Prop :=
  ∀ name, (s.definition name).UpToDate

theorem upToDate_empty : empty.UpToDate :=
  fun _ => (Definition.fresh_ofRecords [] []).upToDate

theorem UpToDate.define {s : Session} (h : s.UpToDate) (name : String) {d : Definition}
    (hd : d.UpToDate) : (s.define name d).UpToDate := by
  intro other
  rw [definition_define]
  split
  · exact hd
  · exact h other

theorem call_eq (s : Session) (c : Call) :
    s.call c =
      (c.outcome (s.definition c.definition),
        s.define c.definition
          ((s.definition c.definition).keepIndexes (c.consulted (s.definition c.definition)))) := by
  cases c <;> rfl

theorem callKeeping_eq_call (s : Session) (c : Call) : s.callKeeping c = s.call c := by
  rw [call_eq, callKeeping, c.run_keeping]
  rfl

/-- A call changes indexes and nothing else. -/
theorem withoutIndexes_call (s : Session) (c : Call) (name : String) :
    ((s.call c).2.definition name).withoutIndexes = (s.definition name).withoutIndexes := by
  rw [call_eq, definition_define]
  split
  · rename_i hname
    rw [hname, Definition.withoutIndexes_keepIndexes]
  · rfl

theorem UpToDate.call {s : Session} (h : s.UpToDate) (c : Call) : (s.call c).2.UpToDate := by
  rw [call_eq]
  exact h.define c.definition ((h c.definition).keepIndexes _)

/-- What is built anew from a definition is the same after a call as before. -/
theorem rebuilt_call (s : Session) (c : Call) (name : String) :
    ((s.call c).2.definition name).rebuilt = (s.definition name).rebuilt := by
  rw [← Definition.rebuilt_withoutIndexes, withoutIndexes_call, Definition.rebuilt_withoutIndexes]

/-- Calls one after the other give what each one gives on definitions built anew, and change
indexes and nothing else, whether the indexes are kept on the way or at the end of each call. -/
theorem inTurn_rebuilt {s : Session} (h : s.UpToDate) (calls : List Call) :
    s.inTurn callKeeping calls = s.inTurn call calls ∧
    (s.inTurn call calls).1 = calls.map (fun c => c.outcome (s.definition c.definition).rebuilt) ∧
    ∀ name, ((s.inTurn call calls).2.definition name).withoutIndexes =
      (s.definition name).withoutIndexes := by
  -- After each call no index is out of date, and what is built anew is what it was before.
  induction calls generalizing s with
  | nil => exact ⟨rfl, rfl, fun _ => rfl⟩
  | cons c calls ih =>
    obtain ⟨hkeeping, houtcomes, hsame⟩ := ih (h.call c)
    refine ⟨?_, ?_, ?_⟩
    · simp only [inTurn, callKeeping_eq_call, hkeeping]
    · have hfirst : (s.call c).1 = c.outcome (s.definition c.definition).rebuilt := by
        rw [call_eq, c.outcome_rebuilt (h c.definition)]
      simp only [inTurn, List.map_cons, houtcomes, hfirst, rebuilt_call]
    · intro name
      exact (hsame name).trans (s.withoutIndexes_call c name)

/-- The first call keeps the index of `q` and then fails, as `p` can have none. -/
theorem inTurn_rebuilt_failed :
    ((empty.define "d" (.ofRecords [⟨[("q", "1")]⟩]
        [("p", [⟨[("name", "Bob")]⟩]), ("q", [⟨[("$id", "1"), ("name", "Ann")]⟩])])).inTurn call
      [.render ⟨[.expansion ⟨[⟨"q", none⟩, ⟨"p", some "$id"⟩], "name"⟩], ""⟩ ⟨[("q", "1")]⟩ "d",
        .renderAll ⟨[.expansion ⟨[⟨"q", none⟩], "name"⟩], ""⟩ "d"]).1 =
      [.text (.error (.table (.recordWithoutId "p" 1))), .texts (.ok ["Ann"])] := by
  rw [(inTurn_rebuilt
    (upToDate_empty.define "d" (Definition.fresh_ofRecords _ _).upToDate) _).2.1]
  rfl

end Session

end MailMerge.Merge
