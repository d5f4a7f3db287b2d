/-
A template sees no more of the data than it mentions. Two definitions in which the tables that it
mentions answer alike, and two scopes that agree on its key fields, give the same text or the same
error, and the same tables are consulted on the way.
-/
import MailMerge.Merge.Mentions
import MailMerge.Merge.Render
import MailMerge.Proofs.Data.Built

namespace MailMerge.Merge

open MailMerge.Data MailMerge.Markup

variable {d d' : Definition} {scope scope' : Scope}

theorem findTable_bind_congr {α : Type} {name : String} (h : d.AlikeAt d' name)
    {f g : Table → Consulted α} (hfg : ∀ t t', t.Alike t' → f t = g t') :
    (findTable d name >>= f) = (findTable d' name >>= g) := by
  unfold Definition.AlikeAt at h
  unfold findTable
  generalize d.table? name = x, d'.table? name = y at h
  cases h with
  | none => rfl
  | some ht => exact hfg _ _ ht

/-! ## Lookups -/

/-- A lookup leads to the same records in two definitions and two scopes. -/
structure LeadsAlike (d d' : Definition) (scope scope' : Scope) (lookup : Lookup) : Prop where
  table : d.AlikeAt d' lookup.table
  bound : scope.get? lookup.keyField = scope'.get? lookup.keyField

theorem LeadsAlike.bind {lookup : Lookup} (h : LeadsAlike d d' scope scope' lookup) (name : String)
    (record : Record) :
    LeadsAlike d d' (scope.bind name record) (scope'.bind name record) lookup := by
  refine ⟨h.table, ?_⟩
  rw [Scope.get?_bind, Scope.get?_bind, h.bound]

theorem LeadsAlike.resolve_eq {lookup : Lookup} (h : LeadsAlike d d' scope scope' lookup)
    (current : Record) :
    (Resolution.of lookup scope).resolve current d =
      (Resolution.of lookup scope').resolve current d' := by
  unfold Resolution.of
  rw [h.bound]
  cases scope'.get? lookup.keyField with
  | some record => rfl
  | none =>
    simp only [Resolution.resolve]
    congr 1
    funext key
    apply findTable_bind_congr h.table
    intro t t' ht
    rw [ht.require key]

theorem resolvePath_congr {path : List Lookup}
    (h : ∀ l ∈ path, LeadsAlike d d' scope scope' l) (start : Record) :
    resolvePath path start scope d = resolvePath path start scope' d' := by
  unfold resolvePath
  induction path generalizing start with
  | nil => rfl
  | cons lookup path ih =>
    rw [List.forall_mem_cons] at h
    rw [List.foldlM_cons, List.foldlM_cons, h.1.resolve_eq]
    congr 1
    funext record
    exact ih h.2 record

/-! ## Fields -/

theorem expand_congr {e : Expansion} (h : ∀ l ∈ e.path, LeadsAlike d d' scope scope' l)
    (record : Record) : expand e record scope d = expand e record scope' d' := by
  unfold expand
  rw [resolvePath_congr h]

theorem compare_congr {c : Comparison}
    (h : ∀ l ∈ c.subject.path, LeadsAlike d d' scope scope' l) (record : Record) :
    compare c record scope d = compare c record scope' d' := by
  unfold compare
  rw [expand_congr h]

/-! ## Loops -/

theorem exclusionKey_congr {lookup : Lookup}
    (h : scope.get? lookup.keyField = scope'.get? lookup.keyField) (record : Record) :
    exclusionKey lookup record scope = exclusionKey lookup record scope' := by
  unfold exclusionKey
  rw [h]

theorem loopRecords_congr {b : Binding} (htable : d.AlikeAt d' b.table)
    (h : ∀ l ∈ b.lookups, LeadsAlike d d' scope scope' l) (record : Record) :
    loopRecords b record scope d = loopRecords b record scope' d' := by
  unfold loopRecords
  apply findTable_bind_congr htable
  intro t t' ht
  cases hb : b.lookup? with
  | none => exact congrArg pure ht.records
  | some lookup =>
    have hlookup := h lookup (List.mem_append_left _ (by simp [hb]))
    simp only [exclusionKey_congr hlookup.bound, ht.find?, ht.records]

theorem accepts_congr {b : Binding} (h : ∀ l ∈ b.lookups, LeadsAlike d d' scope scope' l)
    (name : String) (candidate : Record) :
    accepts name b scope d candidate = accepts name b scope' d' candidate := by
  unfold accepts
  cases hb : b.condition? with
  | none => rfl
  | some c =>
    apply compare_congr
    intro l hl
    exact (h l (List.mem_append_right _ (by simpa [hb] using hl))).bind name candidate

/-! ## Pieces -/

mutual

theorem renderPiece_congr (record : Record) :
    ∀ (piece : Piece) {scope scope' : Scope},
      (∀ l ∈ piece.lookups, LeadsAlike d d' scope scope' l) →
      (∀ name ∈ piece.loopTables, d.AlikeAt d' name) →
      renderPiece record d piece scope = renderPiece record d' piece scope'
  | .text _, _, _, _, _ => by rw [renderPiece, renderPiece]
  | .expansion e, _, _, hl, _ => by
    rw [renderPiece, renderPiece]
    exact expand_congr hl record
  | .conditional test body, scope, scope', hl, ht => by
    rw [Piece.lookups, List.forall_mem_append] at hl
    rw [renderPiece, renderPiece, compare_congr hl.1,
      renderPieces_congr record body hl.2 (by simpa [Piece.loopTables] using ht)]
  | .loop name binding body, scope, scope', hl, ht => by
    rw [Piece.lookups, List.forall_mem_append] at hl
    rw [Piece.loopTables, List.forall_mem_cons] at ht
    rw [renderPiece, renderPiece, loopRecords_congr ht.1 hl.1]
    congr 1
    funext records
    congr 1
    -- Both scopes bind the name to the candidate, so that they still agree inside the loop.
    · funext candidate
      exact accepts_congr hl.1 name candidate
    · funext candidate
      exact renderPieces_congr record body (fun l h => (hl.2 l h).bind name candidate) ht.2

theorem renderPieces_congr (record : Record) :
    ∀ (pieces : List Piece) {scope scope' : Scope},
      (∀ l ∈ Piece.lookupsIn pieces, LeadsAlike d d' scope scope' l) →
      (∀ name ∈ Piece.loopTablesIn pieces, d.AlikeAt d' name) →
      renderPieces record d pieces scope = renderPieces record d' pieces scope'
  | [], _, _, _, _ => by rw [renderPieces, renderPieces]
  | piece :: pieces, scope, scope', hl, ht => by
    rw [Piece.lookupsIn, List.forall_mem_append] at hl
    rw [Piece.loopTablesIn, List.forall_mem_append] at ht
    rw [renderPieces, renderPieces, renderPiece_congr record piece hl.1 ht.1,
      renderPieces_congr record pieces hl.2 ht.2]

end

/-! ## Templates -/

/-- Two definitions that are built with the same records under each name that a template mentions,
or with none, are the same to it: it gives the same text or the same error, and consults the same
tables. -/
theorem render_mentioned {d d' : Definition} (h : d.Built) (h' : d'.Built) {t : Template}
    (hrecords : ∀ name ∈ t.tables,
      (d.table? name).map Table.records = (d'.table? name).map Table.records)
    (record : Record) : t.render record d = t.render record d' := by
  have halike : ∀ name ∈ t.tables, d.AlikeAt d' name :=
    fun name hname => h.alikeAt h' (hrecords name hname)
  apply renderPieces_congr record t.pieces
  · intro lookup hlookup
    refine ⟨halike lookup.table ?_, rfl⟩
    exact List.mem_append_right _ (List.mem_map_of_mem hlookup)
  · intro name hname
    exact halike name (List.mem_append_left _ hname)

/-- It does not matter whether the tables come from texts or from records, nor what else there
is. -/
theorem render_mentioned_texts :
    ∃ d, Csv.definitionOfTexts "name\nAnn\n"
        [("r", "name\nBob\n"), ("q", "$id,name\n1,Rome\n2,Oslo\n"),
          ("p", "$id,q\n1,1\n2,2\n3,1\n")] = .ok d ∧
      ((⟨[.loop "x"
          (.filteredOthers "p" ⟨"p", none⟩ ⟨⟨[⟨"q", none⟩], "name"⟩, .notEqual, .text "Rome"⟩)
          [.expansion ⟨[⟨"p", some "x"⟩, ⟨"q", none⟩], "name"⟩]], ""⟩ : Template).render
        ⟨[("p", "1")]⟩ d).result = .ok "Oslo" := by
  have htexts : Csv.definitionOfTexts "name\nAnn\n"
      [("r", "name\nBob\n"), ("q", "$id,name\n1,Rome\n2,Oslo\n"),
        ("p", "$id,q\n1,1\n2,2\n3,1\n")] =
      .ok (.ofRecords [⟨[("name", "Ann")]⟩] [("r", [⟨[("name", "Bob")]⟩]),
        ("q", [⟨[("$id", "1"), ("name", "Rome")]⟩, ⟨[("$id", "2"), ("name", "Oslo")]⟩]),
        ("p", [⟨[("$id", "1"), ("q", "1")]⟩, ⟨[("$id", "2"), ("q", "2")]⟩,
          ⟨[("$id", "3"), ("q", "1")]⟩])]) := by
    rfl
  refine ⟨_, htexts, ?_⟩
  rw [← render_mentioned (d := .ofRecords []
    [("p", [⟨[("$id", "1"), ("q", "1")]⟩, ⟨[("$id", "2"), ("q", "2")]⟩,
        ⟨[("$id", "3"), ("q", "1")]⟩]),
      ("q", [⟨[("$id", "1"), ("name", "Rome")]⟩, ⟨[("$id", "2"), ("name", "Oslo")]⟩])])
    (Definition.built_ofRecords _ _) (Definition.built_of_definitionOfTexts htexts)]
  · rfl
  · decide

end MailMerge.Merge
