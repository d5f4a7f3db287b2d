/-
Scopes as maps. A scope is told by the binds on the way to it from the empty one, whatever else was
bound on the scopes before it: the last bind of a name counts, and names come in the order of their
last binds. What is merged in a scope depends on what its names are bound to and on nothing else.
-/
import Mathlib.Data.List.Induction
import MailMerge.Merge.Turn
import MailMerge.Proofs.List
import MailMerge.Proofs.Merge.Locality

namespace MailMerge.Merge

open MailMerge.Data MailMerge.Markup

namespace Scope

/-! ## Binds on earlier scopes -/

/-- A bind on the scope with a number. -/
structure BindOn where
  parent : Nat
  name : String
  record : Record

/-- One more scope, made by a bind on one of those that are there. -/
def grow (scopes : List Scope) (b : BindOn) : List Scope :=
  scopes ++ [((scopes[b.parent]?).getD .empty).bind b.name b.record]

/-- The scopes that some binds make one after the other, behind the empty one. -/
def grown (binds : List BindOn) : List Scope :=
  binds.foldl grow [.empty]

/-- Every bind is on a scope that is there before it. -/
def Rooted (binds : List BindOn) : Prop :=
  ∀ (i : Nat) (b : BindOn), binds[i]? = some b → b.parent ≤ i

/-- `ChainTo binds n chain`: on the way from the empty scope to the scope `n` the names of `chain`
were bound to its records, one after the other. -/
inductive ChainTo (binds : List BindOn) : Nat → List (String × Record) → Prop
  | empty : ChainTo binds 0 []
  | bind {n : Nat} {b : BindOn} {chain : List (String × Record)} :
    binds[n]? = some b → ChainTo binds b.parent chain →
      ChainTo binds (n + 1) (chain ++ [(b.name, b.record)])

variable {binds : List BindOn} {b : BindOn} {n : Nat}

theorem grown_concat (binds : List BindOn) (b : BindOn) :
    grown (binds ++ [b]) =
      grown binds ++ [(((grown binds)[b.parent]?).getD .empty).bind b.name b.record] := by
  rw [grown, List.foldl_append]
  rfl

theorem length_grown (binds : List BindOn) : (grown binds).length = binds.length + 1 := by
  induction binds using List.reverseRecOn with
  | nil => rfl
  | append_singleton binds b ih =>
    rw [grown_concat, List.length_append, ih, List.length_append]
    rfl

theorem Rooted.of_append {more : List BindOn} (h : Rooted (binds ++ more)) : Rooted binds := by
  intro i b hb
  refine h i b ?_
  rw [List.getElem?_append_left (List.getElem?_eq_some_iff.1 hb).1, hb]

/-- A scope that is there stays as it is, whatever is bound on it or on others. -/
theorem getElem?_grown_concat {s : Scope} (h : (grown binds)[n]? = some s) (b : BindOn) :
    (grown (binds ++ [b]))[n]? = some s := by
  rw [grown_concat, List.getElem?_append_left (List.getElem?_eq_some_iff.1 h).1, h]

/-- Every bind makes a scope out of the one that it is on. -/
theorem getElem?_grown_succ (h : Rooted binds) (hb : binds[n]? = some b) :
    ∃ s, (grown binds)[b.parent]? = some s ∧
      (grown binds)[n + 1]? = some (s.bind b.name b.record) := by
  induction binds using List.reverseRecOn with
  | nil => cases hb
  | append_singleton binds last ih =>
    by_cases hn : n < binds.length
    · rw [List.getElem?_append_left hn] at hb
      obtain ⟨s, hparent, hbind⟩ := ih h.of_append hb
      exact ⟨s, getElem?_grown_concat hparent last, getElem?_grown_concat hbind last⟩
    · have hlast : n = binds.length := by
        have := (List.getElem?_eq_some_iff.1 hb).1
        rw [List.length_append, List.length_singleton] at this
        omega
      subst hlast
      have hparent : b.parent < (grown binds).length := by
        rw [length_grown]
        exact Nat.lt_succ_of_le (h _ b hb)
      rw [List.getElem?_concat_length] at hb
      obtain rfl := Option.some.inj hb
      refine ⟨(grown binds)[last.parent],
        getElem?_grown_concat (List.getElem?_eq_getElem hparent) last, ?_⟩
      rw [grown_concat, ← length_grown, List.getElem?_concat_length,
        List.getElem?_eq_getElem hparent]
      rfl

theorem getElem?_grown_zero (binds : List BindOn) : (grown binds)[0]? = some .empty := by
  induction binds using List.reverseRecOn with
  | nil => rfl
  | append_singleton binds b ih => exact getElem?_grown_concat ih b

/-- Every scope is at the end of a chain. -/
theorem exists_chainTo (h : Rooted binds) (hn : n ≤ binds.length) :
    ∃ chain, ChainTo binds n chain := by
  induction n using Nat.strongRecOn with
  | ind n ih =>
    cases n with
    | zero => exact ⟨[], .empty⟩
    | succ n =>
      have hb := List.getElem?_eq_getElem (show n < binds.length from hn)
      have hparent := h n _ hb
      obtain ⟨chain, hchain⟩ := ih _ (Nat.lt_succ_of_le hparent) (by omega)
      exact ⟨_, .bind hb hchain⟩

/-! ## What a chain binds -/

/-- A scope tells what a chain binds: of every name the record of the last bind, and the names once
each, one that was bound after all binds of another in front of it. -/
structure Tells (s : Scope) (chain : List (String × Record)) : Prop where
  record : ∀ name, s.get? name = ((chain.filter (·.1 = name)).getLast?).map (·.2)
  bound : ∀ name, name ∈ s.names ↔ ∃ b ∈ chain, b.1 = name
  once : s.names.Nodup
  latestFirst : s.names.Pairwise fun x y =>
    ∃ earlier record later, chain = earlier ++ (x, record) :: later ∧ ∀ b ∈ later, b.1 ≠ y

/-- A name that is bound comes first, and only there. -/
theorem names_bind (s : Scope) (name : String) (record : Record) :
    (s.bind name record).names = name :: s.names.filter (· ≠ name) := by
  rw [names, bind, List.map_cons, List.eraseDups_cons, eraseDups_filter, names]
  simp only [beq_eq_decide, decide_not]

theorem tells_empty : Tells .empty [] :=
  ⟨fun _ => rfl, by simp [names, empty], by simp [names, empty], by simp [names, empty]⟩

/-- One more bind adds to the chain. -/
theorem Tells.bind {s : Scope} {chain : List (String × Record)} (h : s.Tells chain) (name : String)
    (record : Record) : (s.bind name record).Tells (chain ++ [(name, record)]) := by
  refine ⟨fun x => ?_, fun x => ?_, ?_, ?_⟩
  · rw [get?_bind, h.record, List.filter_append]
    by_cases hx : name = x
    · simp [hx]
    · simp [hx]
  · rw [names_bind, List.mem_cons, List.mem_filter, h.bound]
    by_cases hx : x = name
    · simp [hx]
    · simp [hx, Ne.symm hx]
  · rw [names_bind, List.nodup_cons]
    exact ⟨by simp, h.once.filter _⟩
  · rw [names_bind, List.pairwise_cons]
    constructor
    · intro y hy
      exact ⟨chain, record, [], rfl, by simp⟩
    · refine (h.latestFirst.filter _).imp_of_mem ?_
      rintro x y - hy ⟨earlier, r, later, rfl, hlater⟩
      refine ⟨earlier, r, later ++ [(name, record)], by simp, ?_⟩
      have hne : y ≠ name := by simpa using (List.mem_filter.1 hy).2
      intro b hb
      rcases List.mem_append.1 hb with hb | hb
      · exact hlater b hb
      · obtain rfl := List.mem_singleton.1 hb
        exact hne.symm

theorem Tells.mem_names_iff {s : Scope} {chain : List (String × Record)} (h : s.Tells chain)
    (name : String) : name ∈ s.names ↔ s.get? name ≠ none := by
  rw [h.bound, h.record, ne_eq, Option.map_eq_none_iff, List.getLast?_eq_none_iff,
    List.filter_eq_nil_iff]
  simp

/-- Every scope tells what its chain binds. -/
theorem exists_tells_of_chainTo (h : Rooted binds) {chain : List (String × Record)}
    (hchain : ChainTo binds n chain) : ∃ s, (grown binds)[n]? = some s ∧ s.Tells chain := by
  induction hchain with
  | empty => exact ⟨.empty, getElem?_grown_zero binds, tells_empty⟩
  | bind hb _ ih =>
    obtain ⟨s, hs, htells⟩ := ih
    obtain ⟨s', hs', hbind⟩ := getElem?_grown_succ h hb
    obtain rfl := Option.some.inj (hs.symm.trans hs')
    exact ⟨_, hbind, htells.bind _ _⟩

/-! ## Merging in a scope -/

variable {s s' : Scope}

theorem leadsAlike_of_get? (h : ∀ name, s.get? name = s'.get? name) (d : Definition)
    (lookup : Lookup) : LeadsAlike d d s s' lookup :=
  ⟨.refl d _, h _⟩

/-- What a loop does is told by what the names are bound to. -/
theorem ofLoop_congr (h : ∀ name, s.get? name = s'.get? name) (name : String) (binding : Binding)
    (record : Record) (d : Definition) :
    Turn.ofLoop name binding record s d = Turn.ofLoop name binding record s' d := by
  have hstart : Turn.start binding record s d = Turn.start binding record s' d := by
    unfold Turn.start
    congr 1
    funext table
    cases binding.lookup? with
    | none => rfl
    | some lookup => simp only [exclusionKey_congr (h lookup.keyField) record]
  have hcondition : Turn.condition name binding s d = Turn.condition name binding s' d := by
    unfold Turn.condition
    congr 1
    funext c candidate
    rw [compare_congr fun l _ => (leadsAlike_of_get? h d l).bind name candidate]
  rw [Turn.ofLoop, hstart, hcondition]
  rfl

end Scope

/-- A scope is a map, the innermost bind first. Each scope that is made by binds on earlier ones has
its chain of binds, and tells what the chain binds; a name is in it if the name is found, which is
if it comes among the names. Two scopes in which the same is found for every name make no difference
to interpolations, comparisons, loops and pieces of all kinds. -/
theorem scopes_as_maps :
    (∀ binds, Scope.Rooted binds →
      (∀ n ≤ binds.length, ∃ chain, Scope.ChainTo binds n chain) ∧
      ∀ n chain, Scope.ChainTo binds n chain → ∃ s, (Scope.grown binds)[n]? = some s ∧
        s.Tells chain ∧ ∀ name, (s.contains name = true ↔ name ∈ s.names) ∧
          (name ∈ s.names ↔ s.get? name ≠ none)) ∧
    ∀ s s' : Scope, (∀ name, s.get? name = s'.get? name) → ∀ (record : Record) (d : Definition),
      (∀ e, expand e record s d = expand e record s' d) ∧
      (∀ c, compare c record s d = compare c record s' d) ∧
      (∀ name binding, candidates name binding record s d = candidates name binding record s' d ∧
        Turn.ofLoop name binding record s d = Turn.ofLoop name binding record s' d) ∧
      ∀ pieces, renderPieces record d pieces s = renderPieces record d pieces s' := by
  refine ⟨fun binds hbinds => ⟨fun n hn => Scope.exists_chainTo hbinds hn, ?_⟩, ?_⟩
  · intro n chain hchain
    obtain ⟨s, hs, htells⟩ := Scope.exists_tells_of_chainTo hbinds hchain
    refine ⟨s, hs, htells, fun name => ⟨?_, htells.mem_names_iff name⟩⟩
    rw [htells.mem_names_iff, Scope.contains, Option.isSome_iff_ne_none]
  · intro s s' h record d
    have hleads := Scope.leadsAlike_of_get? h d
    refine ⟨fun e => expand_congr (fun l _ => hleads l) record,
      fun c => compare_congr (fun l _ => hleads l) record,
      fun name binding => ⟨?_, Scope.ofLoop_congr h name binding record d⟩,
      fun pieces => renderPieces_congr record pieces (fun l _ => hleads l) fun name _ =>
        .refl d name⟩
    unfold candidates
    rw [loopRecords_congr (.refl d _) (fun l _ => hleads l) record,
      funext (accepts_congr (fun l _ => hleads l) name)]

/-- A name that is bound again behind another one, with a sibling that binds more: the two scopes
with the same two records differ in the order of their names only. -/
theorem scopes_as_maps_again :
    let binds : List Scope.BindOn := [⟨0, "a", ⟨[("v", "1")]⟩⟩, ⟨1, "b", ⟨[("v", "2")]⟩⟩,
      ⟨2, "a", ⟨[("v", "3")]⟩⟩, ⟨2, "c", ⟨[("v", "4")]⟩⟩]
    let chain := [("a", ⟨[("v", "1")]⟩), ("b", ⟨[("v", "2")]⟩), ("a", ⟨[("v", "3")]⟩)]
    let again : Scope := ⟨chain.reverse⟩
    let once : Scope := (Scope.empty.bind "a" ⟨[("v", "3")]⟩).bind "b" ⟨[("v", "2")]⟩
    (Scope.Rooted binds ∧ Scope.ChainTo binds 3 chain ∧ (Scope.grown binds)[3]? = some again ∧
      again.Tells chain) ∧
    (∀ name, again.get? name = once.get? name) ∧
      again.names ≠ once.names ∧ ∀ pieces, renderPieces .empty (.ofRecords [] []) pieces again =
        renderPieces .empty (.ofRecords [] []) pieces once := by
  intro binds chain again once
  have hbinds : Scope.Rooted binds := by
    rintro (_ | _ | _ | _ | i) b hb <;> cases hb <;> decide
  have hfirst := @Scope.ChainTo.bind binds 0 _ _ rfl .empty
  have hsecond := @Scope.ChainTo.bind binds 1 _ _ rfl hfirst
  have hchain : Scope.ChainTo binds 3 chain := @Scope.ChainTo.bind binds 2 _ _ rfl hsecond
  obtain ⟨s, hs, htells, -⟩ := (scopes_as_maps.1 binds hbinds).2 3 chain hchain
  obtain rfl : again = s := Option.some.inj hs
  have hsame : ∀ name, again.get? name = once.get? name := by
    intro name
    by_cases ha : "a" = name
    · subst ha
      rfl
    · by_cases hb : "b" = name
      · subst hb
        rfl
      · simp [again, chain, once, Scope.get?, Scope.bind, Scope.empty, valueOf?, ha, hb]
  exact ⟨⟨hbinds, hchain, rfl, htells⟩, hsame, by decide,
    (scopes_as_maps.2 again once hsame .empty (.ofRecords [] [])).2.2.2⟩

end MailMerge.Merge
