/-
Null characters in paths. A path with one is refused by every operation before the tree is looked at,
and no other path is refused for that reason; so making the directories that lead to a place fails
for a null character just if one stands in a name on the way.
-/
import MailMerge.Proofs.Files.Tree

namespace MailMerge.Files

/-! ## Paths -/

/-- Whether a null character stands in a name of a path. -/
def Path.HasNull (p : Path) : Prop :=
  ∃ name ∈ p.names, '\x00' ∈ name.toList

theorem notMem_root (root : Root) : '\x00' ∉ root.shown.toList := by
  cases root <;> decide

theorem mem_intercalate {c : Char} {separator : String} (h : c ∉ separator.toList)
    (names : List String) :
    c ∈ (String.intercalate separator names).toList ↔ ∃ name ∈ names, c ∈ name.toList := by
  induction names with
  | nil => simp
  | cons name names ih =>
    cases names with
    | nil => simp
    | cons next names =>
      rw [String.intercalate_cons_cons, String.toList_append, String.toList_append, List.mem_append,
        List.mem_append, ih]
      simp [h]

/-- The text of a path has a null character just if one of the names has. -/
theorem Path.mem_shown_iff (p : Path) : '\x00' ∈ p.shown.toList ↔ p.HasNull := by
  obtain ⟨root, names⟩ := p
  have hnames := @mem_intercalate '\x00' "/" (by decide) names
  unfold shown HasNull
  split
  · rename_i hroot hnil
    obtain rfl : names = [] := hnil
    simp
  · rw [String.toList_append, List.mem_append, hnames]
    exact or_iff_right (notMem_root _)

/-- What leads to a place has a null character only if the path to this place has one. -/
theorem Path.HasNull.mono {p q : Path} (h : p.HasNull) (hnames : p.names ⊆ q.names) : q.HasNull := by
  obtain ⟨name, hname, hnull⟩ := h
  exact ⟨name, hnames hname, hnull⟩

namespace Tree

variable {t t' : Tree} {p : Path}

/-! ## Operations -/

theorem locate_eq_null_iff : t.locate p = .error .nullCharacter ↔ p.HasNull := by
  rw [← p.mem_shown_iff]
  unfold locate
  by_cases hnull : '\x00' ∈ p.shown.toList
  · simp [hnull]
  · simp only [List.contains_eq_mem, hnull, decide_false, Bool.false_eq_true, if_false, iff_false]
    split
    · nofun
    · cases t.walk _ p.names <;> nofun

/-- What is done at the place of a path fails for a null character only in the path. -/
theorem bind_locate_eq_null_iff {f : Location → Except Fault α}
    (hf : ∀ l, f l ≠ .error .nullCharacter) :
    (t.locate p >>= f) = .error .nullCharacter ↔ p.HasNull := by
  rw [← @locate_eq_null_iff t]
  cases t.locate p with
  | error fault => simp [bind, Except.bind]
  | ok l => exact ⟨fun h => (hf l h).elim, nofun⟩

theorem read_eq_null_iff : t.read p = .error .nullCharacter ↔ p.HasNull :=
  bind_locate_eq_null_iff fun l => by split <;> nofun

theorem write_eq_null_iff {content : List UInt8} :
    t.write p content = .error .nullCharacter ↔ p.HasNull :=
  bind_locate_eq_null_iff fun l => by split <;> nofun

theorem makeDirectory_eq_null_iff : t.makeDirectory p = .error .nullCharacter ↔ p.HasNull :=
  bind_locate_eq_null_iff fun l => by split <;> nofun

/-! ## Directories that lead to a place -/

theorem run_makeDirectory_eq_null_iff :
    ((disk.makeDirectory p).run t).1 = .error .nullCharacter ↔ p.HasNull := by
  rw [← @makeDirectory_eq_null_iff t]
  show (change (·.makeDirectory p) t).1 = _ ↔ _
  cases hmade : t.makeDirectory p <;> simp [change, hmade]

/-- A refusal of the system is settled in one way or another. -/
theorem run_settle_ne_null (e : OsError) (path : Path) :
    ((disk.settle p (.os e path)).run t).1 ≠ .error .nullCharacter := by
  show (if t.isDirectory p then (.ok () : Except Fault Unit) else .error (.os e path)) ≠ _
  split <;> nofun

theorem run_ensureLast_eq_null_iff :
    ((disk.ensureLast p).run t).1 = .error .nullCharacter ↔ p.HasNull := by
  rw [← @run_makeDirectory_eq_null_iff t]
  unfold Disk.ensureLast
  rw [StateT.run_bind]
  rcases (disk.makeDirectory p).run t with ⟨(e | _) | _, t'⟩
  · cases e with
    | noSuchFile => exact ⟨nofun, nofun⟩
    | _ => exact ⟨fun h => (run_settle_ne_null _ _ h).elim, nofun⟩
  · exact Iff.rfl
  · exact ⟨nofun, nofun⟩

theorem run_ensureNames_eq_null_iff {root : Root} {names : List String} :
    ((disk.ensureNames root names).run t).1 = .error .nullCharacter ↔
      Path.HasNull ⟨root, names.reverse⟩ := by
  induction names generalizing t with
  | nil => exact run_ensureLast_eq_null_iff
  | cons name above ih =>
    have hmade := @run_makeDirectory_eq_null_iff t ⟨root, (name :: above).reverse⟩
    rw [Disk.ensureNames, StateT.run_bind]
    generalize (disk.makeDirectory ⟨root, (name :: above).reverse⟩).run t = made at hmade ⊢
    rcases made with ⟨(e | _) | _, t₁⟩
    · have hnull : ¬Path.HasNull ⟨root, (name :: above).reverse⟩ := fun h => by cases hmade.2 h
      refine iff_of_false ?_ hnull
      cases e with
      | noSuchFile =>
        -- The directories in front are made first, and none of their names has a null character.
        have habove : ((disk.ensureNames root above).run t₁).1 ≠ .error .nullCharacter := by
          rw [Ne, ih]
          exact fun h => hnull (h.mono (by simp))
        show ((disk.ensureNames root above >>= _).run t₁).1 ≠ _
        rw [StateT.run_bind]
        generalize (disk.ensureNames root above).run t₁ = ensured at habove ⊢
        rcases ensured with ⟨fault | _, t₂⟩
        · exact habove
        · exact fun h => hnull (run_ensureLast_eq_null_iff.1 h)
      | _ => exact run_settle_ne_null _ _
    · exact hmade
    · exact hmade

/-- Making a directory and those that lead to it fails for a null character only in its path. -/
theorem run_ensureDirectory_eq_null_iff :
    ((disk.ensureDirectory p).run t).1 = .error .nullCharacter ↔ p.HasNull := by
  unfold Disk.ensureDirectory
  rw [run_ensureNames_eq_null_iff, List.reverse_reverse]

end Tree

end MailMerge.Files
