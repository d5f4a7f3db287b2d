/-
A template without loops that renders is not changed by more data: records that are added behind
those of a table, and tables under new names. A lookup leads to the first record with the identity,
which stays the first one, and the index of a table can still be built as long as all of the new
records have an identity. Every conditional then goes the way it went before.
-/
import MailMerge.Merge.Render
import MailMerge.Proofs.Data.Alike

namespace MailMerge.Data

/-! ## More records -/

/-- Behind the records of `t` there may be more in `t'`, all of which have an identity. -/
def Table.Grows (t t' : Table) : Prop :=
  ∃ more, t'.records = t.records ++ more ∧ ∀ r ∈ more, r.id? ≠ none

/-- What is found in a table is found in the table that has grown from it. -/
theorem Table.Grows.require {t t' : Table} (h : t.Grows t') (hfresh : t.Fresh) (hfresh' : t'.Fresh)
    {key : String} {record : Record} (hrecord : t.require key = .ok record) :
    t'.require key = .ok record := by
  obtain ⟨more, hrecords, hmore⟩ := h
  rw [hfresh.require_eq_ok_iff, List.findIdx?_eq_none_iff] at hrecord
  rw [hfresh'.require_eq_ok_iff, List.findIdx?_eq_none_iff, hrecords]
  obtain ⟨hids, hfirst⟩ := hrecord
  constructor
  · intro r hr
    rcases List.mem_append.1 hr with hr | hr
    · exact hids r hr
    · simpa using hmore r hr
  · -- A record of the same identity among the new ones comes too late.
    rw [List.find?_append, hfirst]
    rfl

/-- Every table of `d` is also in `d'`, possibly grown. -/
def Definition.Grows (d d' : Definition) : Prop :=
  ∀ name t, d.table? name = some t → ∃ t', d'.table? name = some t' ∧ t.Grows t'

/-- The data grows where records with an identity are added to the ends of lists and lists under
new names. -/
theorem Definition.grows_ofRecords (vars vars' : List Record)
    {tables tables' : List (String × List Record)}
    (h : ∀ name records, valueOf? name tables = some records →
      ∃ more, valueOf? name tables' = some (records ++ more) ∧ ∀ r ∈ more, r.id? ≠ none) :
    (ofRecords vars tables).Grows (ofRecords vars' tables') := by
  intro name t ht
  have htable (vars : List Record) (tables : List (String × List Record)) :
      (ofRecords vars tables).table? name = (valueOf? name tables).map (.ofRecords name) :=
    valueOf?_map Table.ofRecords name tables
  rw [htable] at ht
  obtain ⟨records, hrecords, rfl⟩ := Option.map_eq_some_iff.1 ht
  obtain ⟨more, hmore, hids⟩ := h name records hrecords
  refine ⟨.ofRecords name (records ++ more), ?_, more, ?_, hids⟩
  · rw [htable, hmore]
    rfl
  · rw [Table.records_ofRecords, Table.records_ofRecords]

end MailMerge.Data

namespace MailMerge.Merge

open MailMerge.Data MailMerge.Markup

/-! ## Answers that persist -/

/-- An answer of `x` is also that of `y`; an error of `x` says nothing about `y`. -/
def Consulted.Persists {α : Type} (x y : Consulted α) : Prop :=
  ∀ a, x.result = .ok a → y.result = .ok a

namespace Consulted

variable {α β : Type}

theorem Persists.refl (x : Consulted α) : x.Persists x :=
  fun _ h => h

theorem Persists.bind {x y : Consulted α} (h : x.Persists y) {f g : α → Consulted β}
    (hfg : ∀ a, (f a).Persists (g a)) : (x >>= f).Persists (y >>= g) := by
  intro b hb
  rw [result_bind] at hb ⊢
  cases hx : x.result with
  | error e =>
    rw [hx] at hb
    cases hb
  | ok a =>
    rw [hx] at hb
    rw [h a hx]
    exact hfg a b hb

end Consulted

section

variable {d d' : Definition} (hfresh : d.Fresh) (hfresh' : d'.Fresh) (hgrows : d.Grows d')

include hfresh hfresh' hgrows

/-! ## Lookups and fields -/

theorem persists_resolve (lookup : Lookup) (scope : Scope) (current : Record) :
    ((Resolution.of lookup scope).resolve current d).Persists
      ((Resolution.of lookup scope).resolve current d') := by
  unfold Resolution.of
  cases scope.get? lookup.keyField with
  | some bound => exact .refl _
  | none =>
    refine (Consulted.Persists.refl (readKey current lookup.keyField)).bind fun key => ?_
    intro record hrecord
    unfold findTable at hrecord ⊢
    cases ht : d.table? lookup.table with
    | none =>
      rw [ht] at hrecord
      cases hrecord
    | some t =>
      obtain ⟨t', ht', hgrown⟩ := hgrows lookup.table t ht
      simp only [ht, pure_bind, Consulted.from?] at hrecord
      simp only [ht', pure_bind, Consulted.from?]
      cases hfound : t.require key with
      | error fault =>
        rw [hfound] at hrecord
        cases hrecord
      | ok found =>
        rw [hfound] at hrecord
        cases hrecord
        rw [hgrown.require (hfresh.table? ht) (hfresh'.table? ht') hfound]
        rfl

theorem persists_resolvePath (path : List Lookup) (scope : Scope) (start : Record) :
    (resolvePath path start scope d).Persists (resolvePath path start scope d') := by
  unfold resolvePath
  induction path generalizing start with
  | nil => exact .refl _
  | cons lookup path ih =>
    rw [List.foldlM_cons, List.foldlM_cons]
    exact (persists_resolve hfresh hfresh' hgrows lookup scope start).bind ih

theorem persists_expand (e : Expansion) (record : Record) (scope : Scope) :
    (expand e record scope d).Persists (expand e record scope d') :=
  (persists_resolvePath hfresh hfresh' hgrows e.path scope record).bind fun _ => .refl _

theorem persists_compare (c : Comparison) (record : Record) (scope : Scope) :
    (compare c record scope d).Persists (compare c record scope d') :=
  (persists_expand hfresh hfresh' hgrows c.subject record scope).bind fun _ => .refl _

end

/-! ## Pieces -/

mutual

theorem persists_renderPiece {d d' : Definition} (hfresh : d.Fresh) (hfresh' : d'.Fresh)
    (hgrows : d.Grows d') (record : Record) :
    ∀ (piece : Piece) (scope : Scope), piece.loops = 0 →
      (renderPiece record d piece scope).Persists (renderPiece record d' piece scope)
  | .text value, scope, _ => by
    rw [renderPiece, renderPiece]
    exact .refl _
  | .expansion e, scope, _ => by
    rw [renderPiece, renderPiece]
    exact persists_expand hfresh hfresh' hgrows e record scope
  | .conditional test body, scope, hloops => by
    rw [renderPiece, renderPiece]
    refine (persists_compare hfresh hfresh' hgrows test record scope).bind fun holds => ?_
    cases holds with
    | true => exact persists_renderPieces hfresh hfresh' hgrows record body scope hloops
    | false => exact .refl _
  | .loop name binding body, scope, hloops => by
    rw [Piece.loops] at hloops
    omega

theorem persists_renderPieces {d d' : Definition} (hfresh : d.Fresh) (hfresh' : d'.Fresh)
    (hgrows : d.Grows d') (record : Record) :
    ∀ (pieces : List Piece) (scope : Scope), Piece.loopsIn pieces = 0 →
      (renderPieces record d pieces scope).Persists (renderPieces record d' pieces scope)
  | [], scope, _ => by
    rw [renderPieces, renderPieces]
    exact .refl _
  | piece :: pieces, scope, hloops => by
    rw [Piece.loopsIn] at hloops
    have hpiece : piece.loops = 0 := by omega
    have hpieces : Piece.loopsIn pieces = 0 := by omega
    rw [renderPieces, renderPieces]
    refine (persists_renderPiece hfresh hfresh' hgrows record piece scope hpiece).bind fun _ => ?_
    exact (persists_renderPieces hfresh hfresh' hgrows record pieces scope hpieces).bind
      fun _ => .refl _

end

/-- A template without loops that renders gives the same text when the data has grown. -/
theorem render_grown {d d' : Definition} (hfresh : d.Fresh) (hfresh' : d'.Fresh)
    (hgrows : d.Grows d') {t : Template} (hloops : Piece.loopsIn t.pieces = 0) {record : Record}
    {text : String} (h : (t.render record d).result = .ok text) :
    (t.render record d').result = .ok text :=
  persists_renderPieces hfresh hfresh' hgrows record t.pieces .empty hloops text h

/-- Records of an identity that is taken come too late, and the new table is not looked at. -/
theorem render_grown_taken :
    ((⟨[.conditional ⟨⟨[⟨"p", none⟩], "age"⟩, .greater, .unsigned 30⟩
          [.expansion ⟨[⟨"p", none⟩, ⟨"q", some "home"⟩], "name"⟩]], ""⟩ : Template).render
      ⟨[("p", "1")]⟩
      (.ofRecords [] [
        ("r", [⟨[("name", "Bob")]⟩]),
        ("p", [⟨[("$id", "1"), ("age", "40"), ("home", "7")]⟩, ⟨[("$id", "1"), ("age", "20")]⟩]),
        ("q", [⟨[("$id", "7"), ("name", "Oslo")]⟩, ⟨[("$id", "7"), ("name", "Rome")]⟩])])).result =
      .ok "Oslo" := by
  refine render_grown (d := .ofRecords [] [
      ("p", [⟨[("$id", "1"), ("age", "40"), ("home", "7")]⟩]),
      ("q", [⟨[("$id", "7"), ("name", "Oslo")]⟩])])
    (Definition.fresh_ofRecords _ _) (Definition.fresh_ofRecords _ _)
    (Definition.grows_ofRecords _ _ ?_) rfl ?_
  · intro name records hrecords
    rw [valueOf?, valueOf?, valueOf?] at hrecords
    split at hrecords
    · rename_i hname
      cases hname
      cases hrecords
      exact ⟨[⟨[("$id", "1"), ("age", "20")]⟩], rfl, by decide⟩
    · split at hrecords
      · rename_i hname
        cases hname
        cases hrecords
        exact ⟨[⟨[("$id", "7"), ("name", "Rome")]⟩], rfl, by decide⟩
      · cases hrecords
  · rfl

end MailMerge.Merge
