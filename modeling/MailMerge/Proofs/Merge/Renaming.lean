/-
The name of a loop can be chosen freely. Under its new name the loop renders as before, as long as
no lookup in its condition or its body had that key field already and no inner loop has that name:
a lookup finds the record of the loop by the new name where it found it by the old one, and
everything else where it found it before.
-/
import MailMerge.Markup.Rename
import MailMerge.Proofs.Merge.Filtering
import MailMerge.Proofs.Merge.Locality

namespace MailMerge.Merge

open MailMerge.Data MailMerge.Markup

/-! ## The lookups of a template -/

mutual

theorem mem_lookups_of_ofNode {l : Lookup} :
    ∀ {node : Node}, l ∈ (Piece.ofNode node).lookups → l ∈ node.lookups
  | .text _, h => by simp [Piece.ofNode, Piece.lookups] at h
  | .expansion e, h => by simpa [Piece.ofNode, Piece.lookups, Node.lookups] using h
  | .block (.conditional test) body, h => by
    rw [Piece.ofNode, Piece.lookups, List.mem_append] at h
    rw [Node.lookups, List.mem_append]
    exact h.imp_right mem_lookupsIn_of_ofNodes
  | .block (.loop head) body, h => by
    rw [Piece.ofNode, Piece.lookups, Binding.lookups, List.mem_append, List.mem_append] at h
    rw [Node.lookups, List.cons_append, List.mem_cons, List.mem_append]
    rcases h with (h | h) | h
    · simp only [Binding.lookup?_ofHead, Option.mem_toList] at h
      split at h
      · exact .inl (Option.some.inj h).symm
      · cases h
    · exact .inr (.inl (by simpa [LoopHead.conditionPath] using h))
    · exact .inr (.inr (mem_lookupsIn_of_ofNodes h))

theorem mem_lookupsIn_of_ofNodes {l : Lookup} :
    ∀ {nodes : List Node}, l ∈ Piece.lookupsIn (Piece.ofNodes nodes) → l ∈ Node.lookupsIn nodes
  | [], h => by simp [Piece.ofNodes, Piece.lookupsIn] at h
  | node :: nodes, h => by
    rw [Piece.ofNodes, Piece.lookupsIn, List.mem_append] at h
    rw [Node.lookupsIn, List.mem_append]
    exact h.imp mem_lookups_of_ofNode mem_lookupsIn_of_ofNodes

end

/-! ## Scopes -/

/-- What the one scope binds to `old` the other binds to `new`; apart from these names they agree. -/
structure Renamed (old new : String) (scope scope' : Scope) : Prop where
  bound : ∃ record, scope.get? old = some record ∧ scope'.get? new = some record
  others : ∀ name, name ≠ old → name ≠ new → scope.get? name = scope'.get? name

variable {old new : String} {scope scope' : Scope}

theorem renamed_bind (old new : String) (scope : Scope) (record : Record) :
    Renamed old new (scope.bind old record) (scope.bind new record) := by
  refine ⟨⟨record, by simp [Scope.get?_bind], by simp [Scope.get?_bind]⟩, ?_⟩
  intro name hold hnew
  simp [Scope.get?_bind, hold.symm, hnew.symm]

theorem Renamed.bind (h : Renamed old new scope scope') {name : String} (hold : name ≠ old)
    (hnew : name ≠ new) (record : Record) :
    Renamed old new (scope.bind name record) (scope'.bind name record) := by
  refine ⟨?_, ?_⟩
  · simpa [Scope.get?_bind, hold, hnew] using h.bound
  · intro other hother hother'
    simp [Scope.get?_bind, h.others other hother hother']

/-- An inner loop of the old name hides the one that is renamed. -/
theorem Renamed.get?_hidden (h : Renamed old new scope scope') (record : Record) {name : String}
    (hname : name ≠ new) :
    (scope.bind old record).get? name = (scope'.bind old record).get? name := by
  rw [Scope.get?_bind, Scope.get?_bind]
  split
  · rfl
  · rename_i hold
    exact h.others name (Ne.symm hold) hname

/-! ## Lookups -/

variable {d : Definition}

theorem keyField_rename (l : Lookup) :
    (l.rename old new).keyField = if l.keyField = old then new else l.keyField := by
  unfold Lookup.rename
  split <;> rfl

theorem table_rename (l : Lookup) : (l.rename old new).table = l.table := by
  unfold Lookup.rename
  split <;> rfl

theorem Renamed.get?_rename (h : Renamed old new scope scope') {l : Lookup}
    (hl : l.keyField ≠ new) :
    scope'.get? (l.rename old new).keyField = scope.get? l.keyField := by
  rw [keyField_rename]
  split
  · rename_i hold
    obtain ⟨record, hrecord, hrecord'⟩ := h.bound
    rw [hold, hrecord, hrecord']
  · rename_i hold
    exact (h.others l.keyField hold hl).symm

/-- A key field that is renamed is bound, so that no key is read from it. -/
theorem Renamed.rename_of_not_bound (h : Renamed old new scope scope') {l : Lookup}
    (hl : scope.get? l.keyField = none) : l.rename old new = l := by
  unfold Lookup.rename
  split
  · rename_i hold
    obtain ⟨record, hrecord, -⟩ := h.bound
    rw [hold, hrecord] at hl
    cases hl
  · rfl

theorem Renamed.resolve_eq (h : Renamed old new scope scope') {l : Lookup}
    (hl : l.keyField ≠ new) (current : Record) :
    (Resolution.of (l.rename old new) scope').resolve current d =
      (Resolution.of l scope).resolve current d := by
  unfold Resolution.of
  rw [h.get?_rename hl]
  cases hbound : scope.get? l.keyField with
  | some record => rfl
  | none => rw [h.rename_of_not_bound hbound]

theorem Renamed.resolvePath_eq (h : Renamed old new scope scope') {path : List Lookup}
    (hpath : ∀ l ∈ path, l.keyField ≠ new) (start : Record) :
    resolvePath (path.map (·.rename old new)) start scope' d = resolvePath path start scope d := by
  unfold resolvePath
  induction path generalizing start with
  | nil => rfl
  | cons l path ih =>
    rw [List.forall_mem_cons] at hpath
    rw [List.map_cons, List.foldlM_cons, List.foldlM_cons, h.resolve_eq hpath.1]
    congr 1
    funext record
    exact ih hpath.2 record

theorem Renamed.expand_eq (h : Renamed old new scope scope') {e : Expansion}
    (he : ∀ l ∈ e.path, l.keyField ≠ new) (record : Record) :
    expand (e.rename old new) record scope' d = expand e record scope d := by
  unfold expand Expansion.rename
  rw [h.resolvePath_eq he]

theorem Renamed.sameBut_compare (h : Renamed old new scope scope') {c : Comparison}
    (hc : ∀ l ∈ c.subject.path, l.keyField ≠ new) (record : Record) :
    (compare c record scope d).SameBut (fun c c' => c' = c.rename old new)
      (compare (c.rename old new) record scope' d) :=
  Merge.sameBut_compare rfl rfl rfl (h.expand_eq hc record)

/-! ## Loops -/

theorem Renamed.exclusionKey_eq (h : Renamed old new scope scope') {l : Lookup}
    (hl : l.keyField ≠ new) (record : Record) :
    exclusionKey (l.rename old new) record scope' = exclusionKey l record scope := by
  unfold exclusionKey
  rw [h.get?_rename hl]
  cases hbound : scope.get? l.keyField with
  | some bound => rfl
  | none => rw [h.rename_of_not_bound hbound]

/-- A condition is kept where its lookups lead to the same records. -/
theorem accepts_eq (head head' : LoopHead) (hcondition : head'.condition = head.condition)
    {candidate : Record}
    (h : ∀ l ∈ head.conditionPath, LeadsAlike d d (scope.bind head.name candidate)
      (scope'.bind head'.name candidate) l) :
    accepts head.name (.ofHead head) scope d candidate =
      accepts head'.name (.ofHead head') scope' d candidate := by
  unfold accepts
  rw [Binding.condition?_ofHead, Binding.condition?_ofHead, hcondition]
  cases hc : head.condition with
  | none => rfl
  | some c => exact compare_congr (by simpa [LoopHead.conditionPath, hc] using h) candidate

/-- Conditions are renamed where the loops have bound their names to the record. -/
theorem sameBut_accepts {head head' : LoopHead}
    (hcondition : head'.condition = head.condition.map (·.rename old new))
    (hkeys : ∀ l ∈ head.conditionPath, l.keyField ≠ new) {candidate : Record}
    (h : Renamed old new (scope.bind head.name candidate) (scope'.bind head'.name candidate)) :
    (accepts head.name (.ofHead head) scope d candidate).SameBut
      (fun c c' => c' = c.rename old new)
      (accepts head'.name (.ofHead head') scope' d candidate) := by
  unfold accepts
  rw [Binding.condition?_ofHead, Binding.condition?_ofHead, hcondition]
  cases hc : head.condition with
  | none => exact .refl _
  | some c => exact h.sameBut_compare (by simpa [LoopHead.conditionPath, hc] using hkeys) candidate

/-- Two loops over one table that leave out the same record compare by what they do with the
others. -/
theorem sameBut_loop {R : Comparison → Comparison → Prop} (head head' : LoopHead)
    (htable : head'.lookup.table = head.lookup.table) (hother : head'.other = head.other)
    {record : Record}
    (hkey : exclusionKey head'.lookup record scope' = exclusionKey head.lookup record scope)
    (haccepts : ∀ candidate, (accepts head.name (.ofHead head) scope d candidate).SameBut R
      (accepts head'.name (.ofHead head') scope' d candidate))
    {body body' : List Piece}
    (hbody : ∀ candidate, (renderPieces record d body (scope.bind head.name candidate)).SameBut R
      (renderPieces record d body' (scope'.bind head'.name candidate))) :
    (renderPiece record d (.loop head.name (.ofHead head) body) scope).SameBut R
      (renderPiece record d (.loop head'.name (.ofHead head') body') scope') := by
  rw [renderPiece, renderPiece, loopRecords_ofHead_eq head head' htable hother hkey]
  exact (Consulted.SameBut.refl _).bind (sameBut_renderEach haccepts hbody)

/-! ## Nodes -/

mutual

theorem sameBut_rename (record : Record) :
    ∀ (node : Node) {scope scope' : Scope}, Renamed old new scope scope' →
      (∀ l ∈ node.lookups, l.keyField ≠ new) → new ∉ node.loopNames →
      (renderPiece record d (.ofNode node) scope).SameBut (fun c c' => c' = c.rename old new)
        (renderPiece record d (.ofNode (node.rename old new)) scope')
  | .text value, _, _, _, _, _ => by
    simp only [Node.rename, Piece.ofNode, renderPiece]
    exact .refl _
  | .expansion e, scope, scope', h, hl, _ => by
    simp only [Node.rename, Piece.ofNode, renderPiece, h.expand_eq hl]
    exact .refl _
  | .block (.conditional test) body, scope, scope', h, hl, hnames => by
    rw [Node.lookups, List.forall_mem_append] at hl
    rw [Node.loopNames] at hnames
    simp only [Node.rename, Piece.ofNode, renderPiece]
    refine (h.sameBut_compare hl.1 record).bind fun holds => ?_
    cases holds with
    | true => exact sameBut_renameIn record body h hl.2 hnames
    | false => exact .refl _
  | .block (.loop head) body, scope, scope', h, hl, hnames => by
    rw [Node.lookups, List.cons_append, List.forall_mem_cons, List.forall_mem_append] at hl
    obtain ⟨hlookup, hcondition, hbody⟩ := hl
    rw [Node.loopNames, List.mem_cons, not_or] at hnames
    have hkey := h.exclusionKey_eq hlookup record
    rw [Node.rename]
    split
    · rename_i hname
      -- The inner loop binds the old name anew: nothing in it refers to the one outside.
      have hhidden (candidate : Record) {l : Lookup} (hl : l.keyField ≠ new) :
          LeadsAlike d d (scope.bind head.name candidate) (scope'.bind head.name candidate) l :=
        ⟨.refl d l.table, hname ▸ h.get?_hidden candidate hl⟩
      rw [Piece.ofNode, Piece.ofNode]
      refine sameBut_loop head { head with lookup := head.lookup.rename old new }
        (table_rename head.lookup) rfl hkey (fun candidate => .of_eq ?_) fun candidate => .of_eq ?_
      · exact accepts_eq head { head with lookup := head.lookup.rename old new } rfl
          fun l hl => hhidden candidate (hcondition l hl)
      · exact renderPieces_congr record (Piece.ofNodes body)
          (fun l hl => hhidden candidate (hbody l (mem_lookupsIn_of_ofNodes hl)))
          fun name _ => .refl d name
    · rename_i hname
      have hbind (candidate : Record) := h.bind hname (Ne.symm hnames.1) candidate
      rw [Piece.ofNode, Piece.ofNode]
      exact sameBut_loop head
        { head with
          lookup := head.lookup.rename old new
          condition := head.condition.map (·.rename old new) }
        (table_rename head.lookup) rfl hkey
        (fun candidate => sameBut_accepts rfl hcondition (hbind candidate))
        fun candidate => sameBut_renameIn record body (hbind candidate) hbody hnames.2

theorem sameBut_renameIn (record : Record) :
    ∀ (nodes : List Node) {scope scope' : Scope}, Renamed old new scope scope' →
      (∀ l ∈ Node.lookupsIn nodes, l.keyField ≠ new) → new ∉ Node.loopNamesIn nodes →
      (renderPieces record d (Piece.ofNodes nodes) scope).SameBut (fun c c' => c' = c.rename old new)
        (renderPieces record d (Piece.ofNodes (Node.renameIn old new nodes)) scope')
  | [], _, _, _, _, _ => by
    simp only [Node.renameIn, Piece.ofNodes, renderPieces]
    exact .refl _
  | node :: nodes, scope, scope', h, hl, hnames => by
    rw [Node.lookupsIn, List.forall_mem_append] at hl
    rw [Node.loopNamesIn, List.mem_append, not_or] at hnames
    simp only [Node.renameIn, Piece.ofNodes, renderPieces]
    refine (sameBut_rename record node h hl.1 hnames.1).bind fun text => ?_
    exact (sameBut_renameIn record nodes h hl.2 hnames.2).bind fun more => .refl _

end

/-- A loop renders as before when it gets another name and its name is replaced where its condition
and its body use it: the same text, or an error that differs at most in the comparison that is told
to have failed. The new name must not be in use there already. -/
theorem renderPiece_renamed (head : LoopHead) (body : List Node) (new : String)
    (hcondition : ∀ l ∈ head.conditionPath, l.keyField ≠ new)
    (hbody : ∀ l ∈ Node.lookupsIn body, l.keyField ≠ new) (hnames : new ∉ Node.loopNamesIn body)
    (record : Record) (scope : Scope) (d : Definition) :
    (renderPiece record d (.ofNode (.block (.loop head) body)) scope).SameBut
      (fun c c' => c' = c.rename head.name new)
      (renderPiece record d
        (.ofNode (.block (.loop (head.renamed new)) (Node.renameIn head.name new body))) scope) := by
  have hbind (candidate : Record) := renamed_bind head.name new scope candidate
  rw [Piece.ofNode, Piece.ofNode]
  exact sameBut_loop head (head.renamed new) rfl rfl rfl
    (fun candidate => sameBut_accepts rfl hcondition (hbind candidate))
    fun candidate => sameBut_renameIn record body (hbind candidate) hbody hnames

/-- The inner loop takes the name `x` again: its lookup refers to the outer loop and its body does
not. -/
theorem renderPiece_renamed_hidden :
    (renderPiece .empty (.ofRecords [] [("p", [⟨[("$id", "1")]⟩, ⟨[("$id", "2")]⟩])])
        (.ofNode (.block
          (.loop ⟨"x", ⟨"p", none⟩, some ⟨⟨[⟨"x", none⟩], "$id"⟩, .less, .unsigned 2⟩, false⟩)
          [.expansion ⟨[⟨"p", some "x"⟩], "$id"⟩,
            .block (.loop ⟨"x", ⟨"p", some "x"⟩, none, true⟩) [.expansion ⟨[⟨"x", none⟩], "$id"⟩]]))
        .empty).SameBut
      (fun c c' => c' = c.rename "x" "y")
      (renderPiece .empty (.ofRecords [] [("p", [⟨[("$id", "1")]⟩, ⟨[("$id", "2")]⟩])])
        (.ofNode (.block
          (.loop ⟨"y", ⟨"p", none⟩, some ⟨⟨[⟨"x", some "y"⟩], "$id"⟩, .less, .unsigned 2⟩, false⟩)
          [.expansion ⟨[⟨"p", some "y"⟩], "$id"⟩,
            .block (.loop ⟨"x", ⟨"p", some "y"⟩, none, true⟩) [.expansion ⟨[⟨"x", none⟩], "$id"⟩]]))
        .empty) :=
  renderPiece_renamed
    ⟨"x", ⟨"p", none⟩, some ⟨⟨[⟨"x", none⟩], "$id"⟩, .less, .unsigned 2⟩, false⟩
    [.expansion ⟨[⟨"p", some "x"⟩], "$id"⟩,
      .block (.loop ⟨"x", ⟨"p", some "x"⟩, none, true⟩) [.expansion ⟨[⟨"x", none⟩], "$id"⟩]]
    "y" (by decide) (by decide) (by decide) .empty .empty _

end MailMerge.Merge
