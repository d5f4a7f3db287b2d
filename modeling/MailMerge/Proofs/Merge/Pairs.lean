/-
A loop over the others of the record of the loop around it goes through the pairs of a table. With
identities that are all different, leaving out the bound record leaves out no other one. So the body
is rendered once for each two different positions, in the order of the positions.
-/
import Mathlib.Data.List.Nodup
import MailMerge.Proofs.Merge.Others

namespace MailMerge.Merge

open MailMerge.Data MailMerge.Markup

/-! ## Pairs of positions -/

/-- The pairs of different positions, in the order in which two nested loops come to them. -/
def pairs (n : Nat) : List (Fin n × Fin n) :=
  (List.finRange n).flatMap fun i => ((List.finRange n).filter (· ≠ i)).map (i, ·)

theorem mem_pairs {n : Nat} {p : Fin n × Fin n} : p ∈ pairs n ↔ p.1 ≠ p.2 := by
  constructor
  · intro h
    obtain ⟨i, -, h⟩ := List.mem_flatMap.1 h
    obtain ⟨j, hj, rfl⟩ := List.mem_map.1 h
    have hne : j ≠ i := by simpa using hj
    exact hne.symm
  · intro h
    have hj : p.2 ∈ (List.finRange n).filter (· ≠ p.1) := by
      simpa using h.symm
    exact List.mem_flatMap.2 ⟨p.1, List.mem_finRange _, List.mem_map.2 ⟨p.2, hj, rfl⟩⟩

theorem pairwise_pairs (n : Nat) :
    (pairs n).Pairwise fun p q => p.1 < q.1 ∨ p.1 = q.1 ∧ p.2 < q.2 := by
  refine List.pairwise_flatMap.2 ⟨?_, ?_⟩
  · intro i _
    refine List.pairwise_map.2 (((List.pairwise_lt_finRange n).filter _).imp ?_)
    exact fun hlt => .inr ⟨rfl, hlt⟩
  · refine (List.pairwise_lt_finRange n).imp ?_
    intro i j hlt p hp q hq
    obtain ⟨_, -, rfl⟩ := List.mem_map.1 hp
    obtain ⟨_, -, rfl⟩ := List.mem_map.1 hq
    exact .inl hlt

theorem length_pairs (n : Nat) : (pairs n).length = n * (n - 1) := by
  have hothers (i : Fin n) : ((List.finRange n).filter (· ≠ i)).length = n - 1 := by
    have herase : (List.finRange n).filter (· ≠ i) = (List.finRange n).erase i := by
      rw [(List.nodup_finRange n).erase_eq_filter]
      exact List.filter_congr fun j _ => by by_cases h : j = i <;> simp [h]
    rw [herase, List.length_erase_of_mem (List.mem_finRange i), List.length_finRange]
  rw [pairs, List.length_flatMap]
  simp only [List.length_map, hothers]
  simp

/-! ## Texts one after the other -/

section

variable {α β ε : Type}

/-- Going over a list is going over its positions. -/
theorem mapM_eq_finRange (f : α → Except ε β) (xs : List α) :
    xs.mapM f = (List.finRange xs.length).mapM fun i => f (xs.get i) := by
  conv_lhs => rw [← List.map_get_finRange xs]
  rw [List.mapM_map]
  rfl

/-- Going over lists in turn is going over the list of them all. -/
theorem mapM_join_flatMap (text : β → Except ε String) (parts : α → List β) (xs : List α) :
    String.join <$> xs.mapM (fun x => String.join <$> (parts x).mapM text) =
      String.join <$> (xs.flatMap parts).mapM text := by
  induction xs with
  | nil => rfl
  | cons x xs ih =>
    have htail (s : String) :
        (xs.mapM fun x => String.join <$> (parts x).mapM text) >>=
            (fun texts => pure (s ++ String.join texts)) =
          (xs.flatMap parts).mapM text >>= fun texts => pure (s ++ String.join texts) := by
      simpa only [map_eq_pure_bind, bind_assoc, pure_bind] using
        congrArg (· >>= fun more => pure (s ++ more)) ih
    simp only [List.mapM_cons, List.flatMap_cons, List.mapM_append, map_bind, bind_map_left,
      map_pure, String.join_cons, String.join_append, htail]

end

theorem forEach_of_keep {keep : Record → Except ResolutionError Bool}
    (hkeep : ∀ r, keep r = .ok true) (excluded : Option String)
    (body : Record → Except ResolutionError String) (records : List Record) :
    forEach excluded keep body records =
      String.join <$> (remaining excluded records).mapM body := by
  induction records with
  | nil => rfl
  | cons record rest ih =>
    rw [remaining_cons, forEach]
    split
    · exact ih
    · have htrue : keep record = pure true := hkeep record
      rw [htrue, pure_bind, if_pos rfl, List.mapM_cons, ih]
      simp only [map_eq_pure_bind, bind_assoc, pure_bind, String.join_cons]

/-! ## Nested loops -/

theorem interpretAll_singleton (record : Record) (d : Definition) (node : Node) (scope : Scope) :
    interpretAll record d [node] scope = interpret record d node scope := by
  rw [interpretAll, interpretAll]
  simp

section

variable {d : Definition} {table : Table} {scope : Scope}

/-- A loop without a condition renders its body for each record that is not left out. -/
theorem interpret_loop {head : LoopHead} (hcondition : head.condition = none)
    (htable : d.table? head.lookup.table = some table) {record : Record} {excluded : Option String}
    (hexcluded : excludedId head table record scope = .ok excluded) (body : List Node) :
    interpret record d (.block (.loop head) body) scope =
      String.join <$> (remaining excluded table.records).mapM fun candidate =>
        interpretAll record d body (scope.bind head.name candidate) := by
  have hpure : excludedId head table record scope = pure excluded := hexcluded
  have hkeep (r : Record) : keeps head r scope d = .ok true := by
    rw [keeps, hcondition]
    rfl
  rw [interpret, tableNamed_of_table? htable, pure_bind, hpure, pure_bind, forEach_of_keep hkeep]

/-- The identity of the record that a loop has bound is left out. -/
theorem excludedId_of_bound (lookup : Lookup) {bound : Record}
    (hbound : scope.get? lookup.keyField = some bound) {id : String} (hid : bound.id? = some id)
    (hids : ∀ r ∈ table.records, r.id? ≠ none) (name : String) (record : Record) :
    excludedId ⟨name, lookup, none, true⟩ table record scope = .ok (some id) := by
  have hpointed : pointedId lookup record scope = pure id := by
    rw [pointedId, hbound]
    exact keyIn_of_get? hid
  rw [excludedId, if_pos rfl, hpointed, checkIds_of_ids hids]
  rfl

/-- The records that have not the identity of one of them are those at the other positions. -/
theorem filter_id_ne (hnodup : (table.records.map (·.id?)).Nodup)
    (i : Fin table.records.length) :
    table.records.filter (·.id? ≠ (table.records.get i).id?) =
      ((List.finRange table.records.length).filter (· ≠ i)).map table.records.get := by
  have hinjective (j : Fin table.records.length) :
      (table.records.get j).id? = (table.records.get i).id? ↔ j = i := by
    refine ⟨fun heq => ?_, fun heq => by rw [heq]⟩
    have hrecord := List.inj_on_of_nodup_map hnodup (List.get_mem _ j) (List.get_mem _ i) heq
    exact (List.Nodup.of_map _ hnodup).get_inj_iff.1 hrecord
  conv_lhs => arg 2; rw [← List.map_get_finRange table.records]
  rw [List.filter_map]
  congr 1
  exact List.filter_congr fun j _ => decide_eq_decide.2 (not_congr (hinjective j))

/-- The inner loop, for the record at one position. -/
theorem interpretAll_others_of_bound {tableName : String} (htable : d.table? tableName = some table)
    (hids : ∀ r ∈ table.records, r.id? ≠ none) (hnodup : (table.records.map (·.id?)).Nodup)
    (a b : String) (body : List Node) (record : Record) (i : Fin table.records.length) :
    interpretAll record d [.block (.loop ⟨b, ⟨tableName, some a⟩, none, true⟩) body]
        (scope.bind a (table.records.get i)) =
      String.join <$> (((List.finRange table.records.length).filter (· ≠ i)).map (i, ·)).mapM
        fun p => interpretAll record d body
          ((scope.bind a (table.records.get p.1)).bind b (table.records.get p.2)) := by
  obtain ⟨id, hid⟩ := Option.ne_none_iff_exists'.1 (hids _ (List.get_mem table.records i))
  have hbound : (scope.bind a (table.records.get i)).get? a = some (table.records.get i) := by
    rw [Scope.get?_bind, if_pos rfl]
  have hexcluded := excludedId_of_bound ⟨tableName, some a⟩ hbound hid hids b record
  rw [interpretAll_singleton, interpret_loop rfl htable hexcluded, remaining_some, ← hid,
    filter_id_ne hnodup, List.mapM_map, List.mapM_map]
  rfl

end

/-- Two loops over the same table, of which the inner one goes over the others of the record of the
outer one, render the body once for each two records, with both of them bound, in the order of their
positions; the first error of these is the error of the loops. -/
theorem render_nested_others {d : Definition} (h : d.Fresh) (tableName : String) {table : Table}
    (htable : d.table? tableName = some table) (hids : ∀ r ∈ table.records, r.id? ≠ none)
    (hnodup : (table.records.map (·.id?)).Nodup) (a b : String) (body : List Node)
    (record : Record) (scope : Scope) :
    ((pairs table.records.length).Pairwise fun p q => p.1 < q.1 ∨ p.1 = q.1 ∧ p.2 < q.2) ∧
    (∀ p, p ∈ pairs table.records.length ↔ p.1 ≠ p.2) ∧
    (pairs table.records.length).length = table.records.length * (table.records.length - 1) ∧
    (renderPieces record d (Piece.ofNodes [.block (.loop ⟨a, ⟨tableName, none⟩, none, false⟩)
        [.block (.loop ⟨b, ⟨tableName, some a⟩, none, true⟩) body]]) scope).result =
      String.join <$> (pairs table.records.length).mapM fun p =>
        (renderPieces record d (Piece.ofNodes body)
          ((scope.bind a (table.records.get p.1)).bind b (table.records.get p.2))).result := by
  refine ⟨pairwise_pairs _, fun _ => mem_pairs, length_pairs _, ?_⟩
  have hexcluded : excludedId ⟨a, ⟨tableName, none⟩, none, false⟩ table record scope =
      .ok none := rfl
  have houter := interpret_loop rfl htable hexcluded
    [.block (.loop ⟨b, ⟨tableName, some a⟩, none, true⟩) body]
  rw [remaining_none, mapM_eq_finRange] at houter
  simp only [interpretAll_others_of_bound htable hids hnodup] at houter
  simp only [result_renderPieces h]
  rw [interpretAll_singleton, houter]
  exact mapM_join_flatMap _ _ _

/-- Three records make six pairs. -/
theorem render_nested_others_three :
    (renderPieces ⟨[]⟩ (.ofRecords [] [("p", [⟨[("$id", "1")]⟩, ⟨[("$id", "2")]⟩,
        ⟨[("$id", "3")]⟩])])
      (Piece.ofNodes [.block (.loop ⟨"a", ⟨"p", none⟩, none, false⟩)
        [.block (.loop ⟨"b", ⟨"p", some "a"⟩, none, true⟩)
          [.expansion ⟨[⟨"p", some "a"⟩], "$id"⟩, .expansion ⟨[⟨"p", some "b"⟩], "$id"⟩,
            .text " "]]]) .empty).result = .ok "12 13 21 23 31 32 " := by
  have hpairs := render_nested_others
    (Definition.fresh_ofRecords []
      [("p", [⟨[("$id", "1")]⟩, ⟨[("$id", "2")]⟩, ⟨[("$id", "3")]⟩])])
    "p" rfl (by decide) (by decide) "a" "b"
    [.expansion ⟨[⟨"p", some "a"⟩], "$id"⟩, .expansion ⟨[⟨"p", some "b"⟩], "$id"⟩, .text " "]
    ⟨[]⟩ .empty
  exact hpairs.2.2.2.trans rfl

end MailMerge.Merge
