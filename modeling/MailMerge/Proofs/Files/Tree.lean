/-
What the operations of a tree change. Reading changes nothing. Making a directory puts one where
nothing was, so that every file stays as it is. Writing a file changes the content at one place.
Either way a directory stays a directory, and so a path leads where it led before: this is what
lets several writes be told apart by the places that their paths lead to in the last tree.
-/
import MailMerge.Files.Tree
import MailMerge.Proofs.Except

namespace MailMerge.Files

/-- The content of a file. -/
def Entry.content? : Entry → Option (List UInt8)
  | file content => some content
  | directory => none

namespace Tree

variable {t t₁ t₂ t' : Tree} {l : Location} {p : Path} {content : List UInt8}

/-- The content of the file at a place, if there is one. -/
def content? (t : Tree) (l : Location) : Option (List UInt8) :=
  (t.entry? l).bind Entry.content?

/-! ## One place -/

theorem root_entry (t : Tree) : t.entry? [] = some .directory :=
  if_pos rfl

/-- What is put at a place stands there, and elsewhere is what was there before. -/
theorem put_entry (t : Tree) (hl : l ≠ []) (entry : Entry) (l' : Location) :
    entry? (t.put l entry) l' = if l' = l then some entry else t.entry? l' := by
  unfold entry? put
  simp only [List.find?_append, List.find?_filter]
  by_cases h : l' = l
  · subst h
    have hnone : t.entries.find? (fun _ => false) = none := List.find?_eq_none.2 (by simp)
    simp [hl, hnone]
  · have hsame : ∀ x : Location × Entry, (x.1 ≠ l ∧ x.1 = l') ↔ x.1 = l' :=
      fun x => ⟨And.right, fun hx => ⟨fun hxl => h (hx ▸ hxl), hx⟩⟩
    simp [h, Ne.symm h, hsame]

/-- A file is read where its path leads. -/
theorem read_eq_ok_iff :
    t.read p = .ok content ↔ ∃ l, t.locate p = .ok l ∧ t.content? l = some content := by
  unfold read content?
  cases t.locate p with
  | error fault => simp [bind, Except.bind]
  | ok l =>
    simp only [bind, Except.bind, Except.ok.injEq, exists_eq_left']
    rcases t.entry? l with _ | _ | _ <;>
      simp [Entry.content?, throw, throwThe, MonadExceptOf.throw, pure, Except.pure]

/-! ## Where a path leads -/

/-- A step is taken from a directory. -/
theorem directory_of_stepTo {name : String} {l' : Location} (h : t.stepTo l name = .ok l') :
    t.entry? l = some .directory := by
  unfold stepTo at h
  by_cases hl : t.entry? l = some .directory
  · exact hl
  · simp [hl] at h

theorem walk_cons_cons (t : Tree) (l : Location) (name next : String) (rest : List String) :
    t.walk l (name :: next :: rest) = (do
      let l ← t.stepTo l name
      if (t.entry? l).isNone then throw .noSuchFile
      t.walk l (next :: rest)) := by
  rw [walk]
  exact List.cons_ne_nil next rest

theorem directory_of_walk {name : String} {rest : List String} {l' : Location}
    (h : t.walk l (name :: rest) = .ok l') : t.entry? l = some .directory := by
  cases rest with
  | nil => exact directory_of_stepTo h
  | cons next rest =>
    rw [walk_cons_cons] at h
    cases hstep : t.stepTo l name with
    | error e => rw [hstep] at h; cases h
    | ok l₁ => exact directory_of_stepTo hstep

/-- A walk of several names passes through directories. -/
theorem walk_cons_eq_ok_iff {name next : String} {rest : List String} {l' : Location} :
    t.walk l (name :: next :: rest) = .ok l' ↔ ∃ l₁, t.stepTo l name = .ok l₁ ∧
      t.entry? l₁ = some .directory ∧ t.walk l₁ (next :: rest) = .ok l' := by
  rw [walk_cons_cons]
  cases t.stepTo l name with
  | error e => simp [bind, Except.bind]
  | ok l₁ =>
    simp only [bind, Except.bind, Except.ok.injEq, exists_eq_left']
    cases hentry : t.entry? l₁ with
    | none => simp [throw, throwThe, MonadExceptOf.throw]
    | some entry =>
      simp only [Option.isNone_some, Bool.false_eq_true, if_false, Option.some.injEq]
      refine ⟨fun h => ⟨?_, h⟩, And.right⟩
      have hdirectory := directory_of_walk h
      rw [hentry] at hdirectory
      exact Option.some.inj hdirectory

/-- A path leads where its names lead, unless it is refused for what it is. -/
theorem locate_eq_ok_iff : t.locate p = .ok l ↔
    '\x00' ∉ p.shown.toList ∧ p.shown.utf8ByteSize < pathLimit ∧
      t.walk (if p.root = .relative then t.start else []) p.names = .ok l := by
  unfold locate
  by_cases hnull : '\x00' ∈ p.shown.toList
  · simp [hnull]
  · by_cases hlong : pathLimit ≤ p.shown.utf8ByteSize
    · simp [hnull, hlong, Nat.not_lt.2 hlong]
    · simp [hnull, hlong, Nat.lt_of_not_le hlong, mapError_eq_ok_iff]

theorem eq_of_stepTo {name : String} {l' : Location} (hname : name ≠ "..")
    (h : t.stepTo l name = .ok l') : l' = l ++ [name] := by
  unfold stepTo at h
  rw [if_neg (not_not_intro (directory_of_stepTo h)), if_neg hname] at h
  split at h
  · cases h
  · exact (Except.ok.inj h).symm

theorem eq_of_walk {names : List String} {l' : Location} (hnames : ".." ∉ names)
    (h : t.walk l names = .ok l') : l' = l ++ names := by
  induction names generalizing l with
  | nil =>
    cases h
    exact (List.append_nil _).symm
  | cons name rest ih =>
    rw [List.mem_cons, not_or] at hnames
    cases rest with
    | nil => exact eq_of_stepTo (Ne.symm hnames.1) h
    | cons next rest =>
      obtain ⟨l₁, hstep, -, hrest⟩ := walk_cons_eq_ok_iff.1 h
      rw [ih hnames.2 hrest, eq_of_stepTo (Ne.symm hnames.1) hstep, List.append_assoc]
      rfl

/-- A path without double dots leads to the place that it names. -/
theorem eq_of_locate (hnames : ".." ∉ p.names) (h : t.locate p = .ok l) :
    l = (if p.root = .relative then t.start else []) ++ p.names := by
  obtain ⟨-, -, hwalk⟩ := locate_eq_ok_iff.1 h
  exact eq_of_walk hnames hwalk

/-! ## Growth -/

/-- The directories of a tree are also those of another one. -/
structure Grown (t t' : Tree) : Prop where
  start : t'.start = t.start
  directory : ∀ l, t.entry? l = some .directory → t'.entry? l = some .directory

namespace Grown

theorem refl (t : Tree) : t.Grown t :=
  ⟨rfl, fun _ h => h⟩

theorem trans (h₁ : t.Grown t₁) (h₂ : t₁.Grown t₂) : t.Grown t₂ :=
  ⟨h₂.start.trans h₁.start, fun l h => h₂.directory l (h₁.directory l h)⟩

/-- Something is put where there is no directory. -/
theorem put (hl : t.entry? l ≠ some .directory) (entry : Entry) : t.Grown (t.put l entry) := by
  refine ⟨rfl, fun l' h => ?_⟩
  have hroot : l ≠ [] := fun h => hl (h ▸ t.root_entry)
  have hne : l' ≠ l := fun h' => hl (h' ▸ h)
  rw [put_entry t hroot, if_neg hne]
  exact h

theorem stepTo (h : t.Grown t') {name : String} {l' : Location} (hstep : t.stepTo l name = .ok l') :
    t'.stepTo l name = .ok l' := by
  unfold Tree.stepTo at hstep ⊢
  by_cases hl : t.entry? l = some .directory
  · simpa [hl, h.directory l hl] using hstep
  · simp [hl] at hstep

theorem walk (h : t.Grown t') {names : List String} {l' : Location}
    (hwalk : t.walk l names = .ok l') : t'.walk l names = .ok l' := by
  induction names generalizing l with
  | nil => exact hwalk
  | cons name rest ih =>
    cases rest with
    | nil => exact h.stepTo hwalk
    | cons next rest =>
      obtain ⟨l₁, hstep, hdirectory, hrest⟩ := walk_cons_eq_ok_iff.1 hwalk
      exact walk_cons_eq_ok_iff.2 ⟨l₁, h.stepTo hstep, h.directory l₁ hdirectory, ih hrest⟩

/-- A path leads where it led before. -/
theorem locate (h : t.Grown t') (hlocate : t.locate p = .ok l) : t'.locate p = .ok l := by
  obtain ⟨hnull, hlong, hwalk⟩ := locate_eq_ok_iff.1 hlocate
  exact locate_eq_ok_iff.2 ⟨hnull, hlong, h.start ▸ h.walk hwalk⟩

end Grown

/-! ## Changes -/

/-- Nothing but directories was added. -/
structure SameFiles (t t' : Tree) : Prop where
  grown : t.Grown t'
  content : ∀ l, t'.content? l = t.content? l

theorem SameFiles.refl (t : Tree) : t.SameFiles t :=
  ⟨.refl t, fun _ => rfl⟩

theorem SameFiles.trans (h₁ : t.SameFiles t₁) (h₂ : t₁.SameFiles t₂) : t.SameFiles t₂ :=
  ⟨h₁.grown.trans h₂.grown, fun l => (h₂.content l).trans (h₁.content l)⟩

instance : Std.Refl SameFiles :=
  ⟨.refl⟩

instance : Trans SameFiles SameFiles SameFiles :=
  ⟨.trans⟩

/-- The file that a path leads to was written, and besides nothing but directories was added. -/
structure WroteFile (t : Tree) (p : Path) (content : List UInt8) (t' : Tree) : Prop where
  grown : t.Grown t'
  written : ∃ l, t'.locate p = .ok l ∧
    ∀ l', t'.content? l' = if l' = l then some content else t.content? l'

theorem content?_put (hl : t.entry? l ≠ some .directory) (entry : Entry) (l' : Location) :
    (t.put l entry).content? l' = if l' = l then entry.content? else t.content? l' := by
  have hroot : l ≠ [] := fun h => hl (h ▸ t.root_entry)
  unfold content?
  rw [put_entry t hroot]
  split <;> rfl

theorem sameFiles_of_makeDirectory (h : t.makeDirectory p = .ok t') : t.SameFiles t' := by
  unfold makeDirectory at h
  cases hlocate : t.locate p with
  | error fault => rw [hlocate] at h; cases h
  | ok l =>
    rw [hlocate] at h
    simp only [bind, Except.bind] at h
    split at h
    · cases h
    · rename_i hnone
      cases h
      have hl : t.entry? l ≠ some .directory := by rw [hnone]; nofun
      refine ⟨.put hl .directory, fun l' => ?_⟩
      rw [content?_put hl]
      split
      · rename_i hl'
        rw [hl', content?, hnone]
        rfl
      · rfl

theorem wroteFile_of_write (h : t.write p content = .ok t') : t.WroteFile p content t' := by
  unfold write at h
  cases hlocate : t.locate p with
  | error fault => rw [hlocate] at h; cases h
  | ok l =>
    rw [hlocate] at h
    simp only [bind, Except.bind] at h
    split at h
    · cases h
    · rename_i hl
      cases h
      exact ⟨.put hl _, l, (Grown.put hl _).locate hlocate, content?_put hl _⟩

theorem SameFiles.wroteFile (h : t.SameFiles t₁) (hwrote : t₁.WroteFile p content t') :
    t.WroteFile p content t' := by
  obtain ⟨hgrown, l, hlocate, hcontent⟩ := hwrote
  refine ⟨h.grown.trans hgrown, l, hlocate, fun l' => ?_⟩
  rw [hcontent, h.content]

/-! ## Computations -/

/-- A computation that does nothing has its answer at once. -/
@[simp] theorem answer_pure (a : α) (t : Tree) : (Pure.pure (a, t) : Id (α × Tree)).1 = a :=
  rfl

/-- Whatever tree a computation starts from, the one that it leaves stands in a relation to it. -/
def Leaves (R : Tree → Tree → Prop) (x : StateM Tree α) : Prop :=
  ∀ t, R t (x.run t).2

section

variable {R : Tree → Tree → Prop} {x : StateM Tree α}

theorem Leaves.pure [Std.Refl R] (a : α) : Leaves R (Pure.pure a : StateM Tree α) :=
  Std.Refl.refl

theorem Leaves.bind [Trans R R R] (hx : Leaves R x) {f : α → StateM Tree β}
    (hf : ∀ a, Leaves R (f a)) : Leaves R (x >>= f) :=
  fun t => Trans.trans (hx t) (hf (x.run t).1 (x.run t).2)

end

instance : Std.Refl (@Eq Tree) :=
  ⟨fun _ => rfl⟩

/-- Behind a computation that changes nothing, the next one starts from the same tree. -/
theorem Leaves.run_bind {x : StateM Tree α} (hx : Leaves Eq x) (f : α → StateM Tree β) (t : Tree) :
    (x >>= f).run t = (f (x.run t).1).run t := by
  rw [StateT.run_bind]
  show (f (x.run t).1).run (x.run t).2 = _
  rw [← hx t]

theorem leaves_read (p : Path) : Leaves Eq (disk.read p) :=
  fun _ => rfl

theorem leaves_makeDirectory (p : Path) : Leaves SameFiles (disk.makeDirectory p) := by
  intro t
  show SameFiles t (change (·.makeDirectory p) t).2
  unfold change
  split
  · rename_i h
    exact sameFiles_of_makeDirectory h
  · exact .refl t

theorem leaves_settle (p : Path) (fault : Fault) : Leaves SameFiles (disk.settle p fault) := by
  unfold Disk.settle
  cases fault with
  | nullCharacter => exact .pure _
  | os e path => exact .bind (fun t => .refl t) fun there => .pure _

theorem leaves_ensureLast (p : Path) : Leaves SameFiles (disk.ensureLast p) := by
  unfold Disk.ensureLast
  refine .bind (leaves_makeDirectory p) fun made => ?_
  split
  · exact .pure _
  · exact .pure _
  · exact leaves_settle p _

theorem leaves_ensureNames (root : Root) (names : List String) :
    Leaves SameFiles (disk.ensureNames root names) := by
  induction names with
  | nil => exact leaves_ensureLast _
  | cons name above ih =>
    rw [Disk.ensureNames]
    refine .bind (leaves_makeDirectory _) fun made => ?_
    split
    · exact .pure _
    · refine .bind ih fun ensured => ?_
      split
      · exact leaves_ensureLast _
      · exact .pure _
    · exact leaves_settle _ _

/-- Making a directory and those that lead to it changes no file. -/
theorem leaves_ensureDirectory (p : Path) : Leaves SameFiles (disk.ensureDirectory p) :=
  leaves_ensureNames p.root p.names.reverse

end Tree

end MailMerge.Files
