/-
Runs that end without an exit code. Each phase has an exit code for the failures that it expects; the
others end the run where they arise. They come from blank values of switches, from bytes of a
template that are no text, from cells, numbers with too many digits and null characters in paths,
and from nothing else.
-/
import MailMerge.Proofs.CommandLine.Phases
import MailMerge.Proofs.Files.NullCharacter
import MailMerge.Proofs.Markup.Overlong

namespace MailMerge.CommandLine

open MailMerge.Data MailMerge.Files MailMerge.Markup MailMerge.Merge MailMerge.Text

variable {t t' : Tree} {o : Options} {fault : LoadFault} {c : Crash}

/-! ## The template -/

theorem templateOfBytes_eq_error_iff {bytes : List UInt8} :
    templateOfBytes bytes = .error fault ↔
      ∃ e, Utf8.decode bytes = .error e ∧ fault = .encoding e := by
  unfold templateOfBytes
  cases Utf8.decode bytes with
  | error e => simp [Except.mapError, bind, Except.bind, eq_comm]
  | ok cs => simp [Except.mapError, bind, Except.bind, pure, Except.pure]

/-- A template whose path has a null character, or whose file is no text. -/
theorem loadTemplate_eq_crash_iff {path : Path} :
    ((loadTemplate Tree.disk path).run t).1 = .error (.crash c) ↔
      (path.HasNull ∧ c = .nullCharacter) ∨
        ∃ bytes e, t.read path = .ok bytes ∧ Utf8.decode bytes = .error e ∧ c = .encoding e := by
  have hnull := @Tree.read_eq_null_iff t path
  rw [loadTemplate, (Tree.leaves_read path).run_bind]
  have hrun : ((Tree.disk.read path).run t).1 = t.read path := rfl
  rw [hrun, ← hnull]
  rcases t.read path with (e | _) | bytes
  · simp
  · simp [eq_comm]
  · cases hbytes : templateOfBytes bytes with
    | ok source =>
      have hdecode : ∀ e, Utf8.decode bytes ≠ .error e := by
        intro e he
        have := templateOfBytes_eq_error_iff.2 ⟨e, he, rfl⟩
        rw [hbytes] at this
        cases this
      simp [hbytes, hdecode]
    | error fault =>
      obtain ⟨e, he, rfl⟩ := templateOfBytes_eq_error_iff.1 hbytes
      simp [hbytes, he, eq_comm]

/-! ## The data -/

/-- A row that a fault ends stays ended whatever lines follow. -/
theorem rowsFrom_append_of_error {line : Nat} {p : Csv.Partial} {lines more : List (List Char)}
    {e : Csv.Fault} (h : (Csv.rowsFrom line p lines).2 = .error e) :
    (Csv.rowsFrom line p (lines ++ more)).2 = .error e := by
  induction lines generalizing line p with
  | nil => cases h
  | cons chars lines ih =>
    rw [List.cons_append]
    unfold Csv.rowsFrom at h ⊢
    split at h
    · exact h
    · split at h
      · rename_i hstart
        rw [if_pos hstart]
        exact ih h
      · rename_i hstart
        rw [if_neg hstart]
        exact ih h

/-- The lines in front of a fault are read as they are in the whole text, where no line end is at a
wrong place. -/
theorem ne_strayLineEnd_of_linesBeforeFault {text : List Char} {e : Csv.Fault}
    (h : (Csv.rowsFrom 0 .start (linesBeforeFault text)).2 = .error e) : e ≠ .strayLineEnd := by
  have hlines : ∃ more, cutLines .universal text = linesBeforeFault text ++ more := by
    unfold linesBeforeFault
    simp only
    split
    · exact ⟨[], (List.append_nil _).symm⟩
    · obtain ⟨more, hmore⟩ := List.dropLast_prefix (cutLines .universal text)
      exact ⟨more, hmore.symm⟩
  obtain ⟨more, hlines⟩ := hlines
  have hwhole := @rowsFrom_append_of_error 0 .start _ more e h
  rw [← hlines, Csv.rowsFrom_cutLines] at hwhole
  have hne : (Csv.found .universal 0 .start text).2 ≠ some .strayLineEnd :=
    Csv.found_universal_ne nofun
  unfold Csv.found at hne
  generalize Csv.rowsAlong .universal 0 .start text = found at hne hwhole
  obtain ⟨rows, _⟩ := found
  cases hwhole
  rintro rfl
  exact hne rfl

/-- In a file only a cell can be at fault. -/
theorem eq_cellTooLong_of_tableOfBytes {name : String} {bytes : List UInt8} {e : Csv.Fault}
    (h : tableOfBytes name bytes = .error (.csv e)) : e = .cellTooLong := by
  have hne : e ≠ .strayLineEnd := by
    unfold tableOfBytes at h
    generalize Utf8.decodePieces .empty bytes = decoded at h
    obtain ⟨text, _ | fault⟩ := decoded
    · have huniversal := Csv.tableOfLines_universal_ne name text
      simp only at h
      generalize Csv.tableOfLines name (cutLines .universal text) = table at h huniversal
      rcases table with (_ | e) | _
      · cases h
      · cases h
        rintro rfl
        exact huniversal rfl
      · cases h
    · have hlines := @ne_strayLineEnd_of_linesBeforeFault text e
      simp only at h
      generalize Csv.rowsFrom 0 .start (linesBeforeFault text) = read at h hlines
      obtain ⟨rows, open?⟩ := read
      cases htable : Csv.tableOfRows name rows with
      | error e => simp [htable, Except.mapError, bind, Except.bind] at h
      | ok table =>
        simp only [htable, Except.mapError, bind, Except.bind] at h
        cases open? with
        | error e =>
          cases h
          exact hlines rfl
        | ok _ => cases h
  cases e with
  | cellTooLong => rfl
  | strayLineEnd => exact (hne rfl).elim

theorem run_loadTable (name : String) (path : Path) (t : Tree) :
    ((loadTable Tree.disk name (.value path)).run t).1 =
      match t.read path with
      | .ok bytes => tableOfBytes name bytes
      | .error fault => .error (.file fault) := by
  have hrun : ((Tree.disk.read path).run t).1 = t.read path := rfl
  rw [loadTable, (Tree.leaves_read path).run_bind, hrun]
  cases t.read path <;> rfl

theorem loadTable_eq_csv_iff {name : String} {path : Path} {e : Csv.Fault} :
    ((loadTable Tree.disk name (.value path)).run t).1 = .error (.csv e) ↔
      ∃ bytes, t.read path = .ok bytes ∧ tableOfBytes name bytes = .error (.csv e) := by
  rw [run_loadTable]
  cases t.read path <;> simp

theorem tableOfBytes_ne_blankPath (name : String) (bytes : List UInt8) :
    tableOfBytes name bytes ≠ .error .blankPath := by
  unfold tableOfBytes
  generalize Utf8.decodePieces .empty bytes = decoded
  obtain ⟨text, _ | fault⟩ := decoded
  · simp only
    rcases Csv.tableOfLines name (cutLines .universal text) with (_ | _) | _ <;> nofun
  · simp only
    generalize Csv.rowsFrom 0 .start (linesBeforeFault text) = read
    obtain ⟨rows, open?⟩ := read
    cases htable : Csv.tableOfRows name rows with
    | error e => simp [Except.mapError, bind, Except.bind]
    | ok table =>
      simp only [Except.mapError, bind, Except.bind]
      cases open? <;> nofun

theorem loadTable_ne_blankPath (name : String) (path : Path) :
    ((loadTable Tree.disk name (.value path)).run t).1 ≠ .error .blankPath := by
  rw [run_loadTable]
  cases t.read path with
  | ok bytes => exact tableOfBytes_ne_blankPath name bytes
  | error fault => nofun

/-- Tables are loaded one after the other. -/
theorem run_loadTables_append (loaded : List (String × Table)) (before after : List (Given Path)) :
    ((loadTables Tree.disk loaded (before ++ after)).run t).1 =
      (((loadTables Tree.disk loaded before).run t).1 >>= fun loaded =>
        ((loadTables Tree.disk loaded after).run t).1) := by
  induction before generalizing loaded with
  | nil => rfl
  | cons path before ih =>
    cases path with
    | blank => rfl
    | value path =>
      rw [List.cons_append, loadTables, loadTables]
      split
      · rfl
      · split
        · rfl
        · rw [(leaves_loadTable _ _).run_bind, (leaves_loadTable _ _).run_bind]
          cases ((loadTable Tree.disk path.stem (.value path)).run t).1 with
          | error fault => rfl
          | ok table => exact ih _

/-- The first table that cannot be loaded ends the loading. -/
theorem loadTables_eq_error_iff {loaded : List (String × Table)} {paths : List (Given Path)} :
    ((loadTables Tree.disk loaded paths).run t).1 = .error fault ↔
      ∃ before path after loaded', paths = before ++ path :: after ∧
        ((loadTables Tree.disk loaded before).run t).1 = .ok loaded' ∧
        ((loadTables Tree.disk loaded' [path]).run t).1 = .error fault := by
  constructor
  · intro h
    induction paths generalizing loaded with
    | nil => cases h
    | cons path paths ih =>
      rw [← List.singleton_append, run_loadTables_append] at h
      cases hfirst : ((loadTables Tree.disk loaded [path]).run t).1 with
      | error fault' =>
        rw [hfirst] at h
        cases h
        exact ⟨[], path, paths, loaded, rfl, rfl, hfirst⟩
      | ok loaded₁ =>
        rw [hfirst] at h
        obtain ⟨before, path', after, loaded', rfl, hbefore, hfault⟩ := ih h
        refine ⟨path :: before, path', after, loaded', rfl, ?_, hfault⟩
        rw [← List.singleton_append, run_loadTables_append, hfirst]
        exact hbefore
  · rintro ⟨before, path, after, loaded', rfl, hbefore, hfault⟩
    rw [run_loadTables_append, hbefore, ← List.singleton_append]
    show ((loadTables Tree.disk loaded' ([path] ++ after)).run t).1 = _
    rw [run_loadTables_append, hfault]
    rfl

/-- The file that is read next, with the name of its table: all tables in front of it are loaded. -/
inductive Awaits (t : Tree) (o : Options) : Given (String × Path) → Prop
  | table {before after : List (Given Path)} {path : Path} {loaded : List (String × Table)}
      (hsplit : o.tables = before ++ .value path :: after)
      (hbefore : ((loadTables Tree.disk [] before).run t).1 = .ok loaded) (hname : path.stem ≠ "")
      (hnew : valueOf? path.stem loaded = none) : Awaits t o (.value (path.stem, path))
  | blankTable {before after : List (Given Path)} {loaded : List (String × Table)}
      (hsplit : o.tables = before ++ .blank :: after)
      (hbefore : ((loadTables Tree.disk [] before).run t).1 = .ok loaded) : Awaits t o .blank
  | vars {loaded : List (String × Table)}
      (htables : ((loadTables Tree.disk [] o.tables).run t).1 = .ok loaded) :
      Awaits t o (o.vars.map fun path => (varsName, path))

/-- A table is refused for its name before its file is read. -/
theorem loadTables_singleton_eq_error_iff {loaded : List (String × Table)} {path : Path} :
    ((loadTables Tree.disk loaded [.value path]).run t).1 = .error fault ↔
      (path.stem = "" ∧ fault = .namelessTable path) ∨
        (path.stem ≠ "" ∧ (valueOf? path.stem loaded).isSome ∧
          fault = .duplicateTable path.stem path) ∨
        (path.stem ≠ "" ∧ valueOf? path.stem loaded = none ∧
          ((loadTable Tree.disk path.stem (.value path)).run t).1 = .error fault) := by
  rw [loadTables]
  by_cases hname : path.stem = ""
  · simpa [hname] using eq_comm
  · rw [if_neg hname]
    cases hnew : valueOf? path.stem loaded with
    | some table => simpa [hname] using eq_comm
    | none =>
      rw [if_neg (by simp), (leaves_loadTable path.stem (.value path)).run_bind]
      cases ((loadTable Tree.disk path.stem (.value path)).run t).1 <;>
        simp [hname, loadTables]

theorem loadDefinition_eq_error_iff :
    ((loadDefinition Tree.disk o.vars o.tables).run t).1 = .error fault ↔
      ((loadTables Tree.disk [] o.tables).run t).1 = .error fault ∨
        ∃ loaded, ((loadTables Tree.disk [] o.tables).run t).1 = .ok loaded ∧
          ((loadTable Tree.disk varsName o.vars).run t).1 = .error fault := by
  rw [loadDefinition, (leaves_loadTables [] o.tables).run_bind]
  cases ((loadTables Tree.disk [] o.tables).run t).1 with
  | error fault' => simp
  | ok loaded =>
    simp only
    rw [(leaves_loadTable varsName o.vars).run_bind]
    cases ((loadTable Tree.disk varsName o.vars).run t).1 <;>
      simp

/-- What is wrong with a file that is read next. -/
def FileFault (t : Tree) (fault : LoadFault) : Given (String × Path) → Prop
  | .blank => fault = .blankPath
  | .value (name, path) => ((loadTable Tree.disk name (.value path)).run t).1 = .error fault

/-- But for names of tables, what is wrong with the file that is read next ends the loading. -/
theorem loadDefinition_eq_error_iff_awaits (hnameless : ∀ path, fault ≠ .namelessTable path)
    (hduplicate : ∀ name path, fault ≠ .duplicateTable name path) :
    ((loadDefinition Tree.disk o.vars o.tables).run t).1 = .error fault ↔
      ∃ file, Awaits t o file ∧ FileFault t fault file := by
  rw [loadDefinition_eq_error_iff]
  constructor
  · rintro (htables | ⟨loaded, htables, hvars⟩)
    · obtain ⟨before, path, after, loaded, hsplit, hbefore, hfault⟩ :=
        loadTables_eq_error_iff.1 htables
      cases path with
      | blank =>
        cases hfault
        exact ⟨.blank, .blankTable hsplit hbefore, rfl⟩
      | value path =>
        rcases loadTables_singleton_eq_error_iff.1 hfault with
          ⟨-, hfault⟩ | ⟨-, -, hfault⟩ | ⟨hname, hnew, hfault⟩
        · exact (hnameless _ hfault).elim
        · exact (hduplicate _ _ hfault).elim
        · exact ⟨.value (path.stem, path), .table hsplit hbefore hname hnew, hfault⟩
    · refine ⟨_, .vars htables, ?_⟩
      cases hgiven : o.vars with
      | blank =>
        rw [hgiven] at hvars
        cases hvars
        rfl
      | value path =>
        rw [hgiven] at hvars
        exact hvars
  · rintro ⟨file, hawaits, hfault⟩
    cases hawaits with
    | table hsplit hbefore hname hnew =>
      exact .inl (loadTables_eq_error_iff.2 ⟨_, _, _, _, hsplit, hbefore,
        loadTables_singleton_eq_error_iff.2 (.inr (.inr ⟨hname, hnew, hfault⟩))⟩)
    | blankTable hsplit hbefore =>
      obtain rfl : fault = .blankPath := hfault
      exact .inl (loadTables_eq_error_iff.2 ⟨_, _, _, _, hsplit, hbefore, rfl⟩)
    | vars htables =>
      refine .inr ⟨_, htables, ?_⟩
      cases hgiven : o.vars with
      | blank =>
        rw [hgiven] at hfault
        obtain rfl : fault = .blankPath := hfault
        rfl
      | value path =>
        rw [hgiven] at hfault
        exact hfault

theorem loadDefinition_eq_blankPath_iff :
    ((loadDefinition Tree.disk o.vars o.tables).run t).1 = .error .blankPath ↔
      Awaits t o .blank := by
  rw [loadDefinition_eq_error_iff_awaits (by simp) (by simp)]
  constructor
  · rintro ⟨_ | ⟨name, path⟩, hawaits, hfault⟩
    · exact hawaits
    · exact (loadTable_ne_blankPath name path hfault).elim
  · intro hawaits
    exact ⟨.blank, hawaits, rfl⟩

theorem loadDefinition_eq_csv_iff {e : Csv.Fault} :
    ((loadDefinition Tree.disk o.vars o.tables).run t).1 = .error (.csv e) ↔
      ∃ name path bytes, Awaits t o (.value (name, path)) ∧ t.read path = .ok bytes ∧
        tableOfBytes name bytes = .error (.csv e) := by
  rw [loadDefinition_eq_error_iff_awaits (by simp) (by simp)]
  constructor
  · rintro ⟨_ | ⟨name, path⟩, hawaits, hfault⟩
    · cases hfault
    · obtain ⟨bytes, hread, hfault⟩ := loadTable_eq_csv_iff.1 hfault
      exact ⟨name, path, bytes, hawaits, hread, hfault⟩
  · rintro ⟨name, path, bytes, hawaits, hread, hfault⟩
    exact ⟨.value (name, path), hawaits, loadTable_eq_csv_iff.2 ⟨bytes, hread, hfault⟩⟩

/-! ## The outputs -/

/-- An output is refused for a null character in its path once the directories in front are made. -/
theorem run_writeOutput_eq_null_iff {path : Path} {text : String} :
    ((writeOutput Tree.disk path text).run t).1 = .error .nullCharacter ↔
      path.HasNull ∧ (path.parent.HasNull ∨
        ((Tree.disk.ensureDirectory path.parent).run t).1 = .ok ()) := by
  have hparent := @Tree.run_ensureDirectory_eq_null_iff t path.parent
  have hmono : path.parent.HasNull → path.HasNull := fun h => h.mono (List.dropLast_subset _)
  rw [run_writeOutput]
  generalize (Tree.disk.ensureDirectory path.parent).run t = ensured at hparent ⊢
  obtain ⟨fault | _, t₁⟩ := ensured
  · simp only [reduceCtorEq, or_false]
    exact hparent.trans (and_iff_right_of_imp hmono).symm
  · have hwrite := @Tree.write_eq_null_iff t₁ path text.toUTF8.toList
    simp only [or_true, and_true]
    rw [← hwrite]
    cases t₁.write path text.toUTF8.toList <;> simp

theorem run_writeOutputs_append_of_ok {before after : List (Path × String)}
    (h : (writeOutputs Tree.disk before).run t = (.ok (), t')) :
    (writeOutputs Tree.disk (before ++ after)).run t = (writeOutputs Tree.disk after).run t' := by
  induction before generalizing t with
  | nil =>
    cases h
    rfl
  | cons output before ih =>
    obtain ⟨path, text⟩ := output
    rw [run_writeOutputs_cons] at h
    split at h
    · rename_i t₁ hfirst
      rw [List.cons_append, writeOutputs_cons_of_ok hfirst]
      exact ih h
    · cases h

/-- The writing ends at the first output that cannot be written. -/
theorem writeOutputs_eq_error_iff {outputs : List (Path × String)} {fault : Files.Fault} :
    ((writeOutputs Tree.disk outputs).run t).1 = .error fault ↔
      ∃ before path text after t₁, outputs = before ++ (path, text) :: after ∧
        (writeOutputs Tree.disk before).run t = (.ok (), t₁) ∧
        ((writeOutput Tree.disk path text).run t₁).1 = .error fault := by
  constructor
  · intro h
    obtain ⟨before, path, text, after, t₁, hsplit, hbefore, hfailed, -⟩ :=
      stopped_of_writeOutputs (Prod.ext h rfl)
    exact ⟨before, path, text, after, t₁, hsplit, hbefore, by rw [hfailed]⟩
  · rintro ⟨before, path, text, after, t₁, rfl, hbefore, hfailed⟩
    rw [run_writeOutputs_append_of_ok hbefore, run_writeOutputs_cons]
    rcases hfirst : (writeOutput Tree.disk path text).run t₁ with ⟨fault' | _, t₂⟩
    · rw [hfirst] at hfailed
      exact hfailed
    · rw [hfirst] at hfailed
      cases hfailed

/-- What ends the delivery of outputs without an exit code. -/
inductive Undelivered (t : Tree) (o : Options) (d : Definition) (outputs : List String) :
    Crash → Prop
  | directory (hout : o.out = some .blank) (hrows : d.vars.rows ≠ []) :
      Undelivered t o d outputs (.blank .directory)
  | output {given : Given Path} {paths : List Path} {before after : List (Path × String)}
      {path : Path} {text : String} {between : Tree} (hout : o.out = some given)
      (hpaths : givenPaths o.template d given = .ok paths)
      (hsplit : paths.zip outputs = before ++ (path, text) :: after)
      (hbefore : (writeOutputs Tree.disk before).run t = (.ok (), between)) (hnull : path.HasNull)
      (hreached : path.parent.HasNull ∨
        ((Tree.disk.ensureDirectory path.parent).run between).1 = .ok ()) :
      Undelivered t o d outputs .nullCharacter

theorem givenPaths_eq_error_iff {template : Path} {d : Definition} {given : Given Path}
    {fault : BlankFault} : givenPaths template d given = .error fault ↔
      given = .blank ∧ d.vars.rows ≠ [] ∧ fault = .directory := by
  cases given with
  | value directory => simp [givenPaths]
  | blank => by_cases hrows : d.vars.rows = [] <;> simp [givenPaths, hrows, eq_comm]

theorem ofWriteFault_eq_crash_iff {fault : Files.Fault} :
    Ending.ofWriteFault fault = .crash c ↔ fault = .nullCharacter ∧ c = .nullCharacter := by
  cases fault <;> simp [Ending.ofWriteFault, eq_comm]

theorem ending_deliver_eq_crash_iff {d : Definition} {outputs : List String}
    {events : List Log.Event} :
    ((deliver Tree.disk o d outputs events).run t).1.ending = .crash c ↔
      Undelivered t o d outputs c := by
  constructor
  · intro h
    cases hout : o.out with
    | none =>
      simp only [deliver, hout] at h
      cases h
    | some given =>
      cases hpaths : givenPaths o.template d given with
      | error fault =>
        simp only [deliver, hout, hpaths] at h
        cases h
        obtain ⟨rfl, hrows, rfl⟩ := givenPaths_eq_error_iff.1 hpaths
        exact .directory hout hrows
      | ok paths =>
        rw [run_deliver hout hpaths] at h
        rcases hwrite : (writeOutputs Tree.disk (paths.zip outputs)).run t with ⟨fault | _, t₁⟩
        · rw [hwrite] at h
          obtain ⟨rfl, rfl⟩ := ofWriteFault_eq_crash_iff.1 h
          obtain ⟨before, path, text, after, between, hsplit, hbefore, hfailed⟩ :=
            writeOutputs_eq_error_iff.1 (congrArg Prod.fst hwrite)
          obtain ⟨hnull, hreached⟩ := run_writeOutput_eq_null_iff.1 hfailed
          exact .output hout hpaths hsplit hbefore hnull hreached
        · rw [hwrite] at h
          cases h
  · intro h
    cases h with
    | directory hout hrows =>
      have hpaths : givenPaths o.template d .blank = .error .directory :=
        givenPaths_eq_error_iff.2 ⟨rfl, hrows, rfl⟩
      simp only [deliver, hout, hpaths]
      rfl
    | output hout hpaths hsplit hbefore hnull hreached =>
      have hwrite := writeOutputs_eq_error_iff.2 ⟨_, _, _, _, _, hsplit, hbefore,
        run_writeOutput_eq_null_iff.2 ⟨hnull, hreached⟩⟩
      rw [run_deliver hout hpaths]
      generalize (writeOutputs Tree.disk (_ : List (Path × String))).run t = written at hwrite ⊢
      obtain ⟨_, t₁⟩ := written
      cases hwrite
      rfl

/-! ## Whole runs -/

/-- The level of the log can be told. -/
def Leveled (env : Log.Environment) (o : Options) : Prop :=
  o.logLevel = some .blank → env.debugging = true

/-- What ends a run without an exit code. -/
inductive Crashes (t : Tree) (env : Log.Environment) (o : Options) : Crash → Prop
  | level (h : ¬Leveled env o) : Crashes t env o (.blank .level)
  | templatePath (hlevel : Leveled env o) (h : o.template.HasNull) : Crashes t env o .nullCharacter
  | templateBytes {bytes : List UInt8} {e : Utf8.Fault} (hlevel : Leveled env o)
      (hread : t.read o.template = .ok bytes) (h : Utf8.decode bytes = .error e) :
      Crashes t env o (.encoding e)
  | dataPath {source : String} (hlevel : Leveled env o)
      (hsource : ((loadTemplate Tree.disk o.template).run t).1 = .ok source)
      (h : Awaits t o .blank) : Crashes t env o (.blank .path)
  | cell {source name : String} {path : Path} {bytes : List UInt8} (hlevel : Leveled env o)
      (hsource : ((loadTemplate Tree.disk o.template).run t).1 = .ok source)
      (hawaits : Awaits t o (.value (name, path))) (hread : t.read path = .ok bytes)
      (h : tableOfBytes name bytes = .error (.csv .cellTooLong)) :
      Crashes t env o (.csv .cellTooLong)
  | number {source : String} {d : Definition} {e : ValueFault} (hlevel : Leveled env o)
      (hsource : ((loadTemplate Tree.disk o.template).run t).1 = .ok source)
      (hd : ((loadDefinition Tree.disk o.vars o.tables).run t).1 = .ok d)
      (h : OverlongAt source e) : Crashes t env o (.value e)
  | delivery {d : Definition} {outputs : List String} {cause : Crash} (hlevel : Leveled env o)
      (hrenders : Renders t o d outputs) (h : Undelivered t o d outputs cause) :
      Crashes t env o cause

theorem ofLoadFault_eq_crash_iff :
    Ending.ofLoadFault fault = .crash c ↔
      (fault = .blankPath ∧ c = .blank .path) ∨ ∃ e, fault = .csv e ∧ c = .csv e := by
  cases fault <;> simp [Ending.ofLoadFault, eq_comm]

theorem ending_merge_eq_crash_iff {source : String} {d : Definition} :
    ((merge Tree.disk o source d).run t).1.ending = .crash c ↔
      (∃ e, OverlongAt source e ∧ c = .value e) ∨
        ∃ template outputs, Template.compile source = .ok template ∧
          template.renderAll d = .ok outputs ∧ Undelivered t o d outputs c := by
  have hoverlong := @parse_eq_valueError_iff source
  unfold merge Template.compile
  simp only [← hoverlong]
  rcases parse source with (e | e) | nodes
  · simp [Ending.ofParseError, Except.map]
  · simp [Ending.ofParseError, Except.map, eq_comm]
  · simp only [Except.map]
    cases hrender : Template.renderAll ⟨Piece.ofNodes nodes, source⟩ d with
    | error e => simp [hrender]
    | ok outputs => simp [hrender, ending_deliver_eq_crash_iff]

theorem ending_perform_eq_crash_iff :
    ((perform Tree.disk o).run t).1.ending = .crash c ↔
      ((loadTemplate Tree.disk o.template).run t).1 = .error (.crash c) ∨
        ∃ source, ((loadTemplate Tree.disk o.template).run t).1 = .ok source ∧
          ((∃ fault, ((loadDefinition Tree.disk o.vars o.tables).run t).1 = .error fault ∧
              Ending.ofLoadFault fault = .crash c) ∨
            ∃ d, ((loadDefinition Tree.disk o.vars o.tables).run t).1 = .ok d ∧
              ((merge Tree.disk o source d).run t).1.ending = .crash c) := by
  rw [run_perform]
  cases ((loadTemplate Tree.disk o.template).run t).1 with
  | error ending => simp
  | ok source => cases ((loadDefinition Tree.disk o.vars o.tables).run t).1 <;> simp

theorem ending_run_eq_crash_iff {env : Log.Environment} :
    ((run Tree.disk env o).run t).1.ending = .crash c ↔
      (¬Leveled env o ∧ c = .blank .level) ∨
        (Leveled env o ∧ ((perform Tree.disk o).run t).1.ending = .crash c) := by
  have hlevel : (Leveled env o ∧ ∃ level, threshold env o.logLevel = .ok level) ∨
      (¬Leveled env o ∧ threshold env o.logLevel = .error .level) := by
    unfold Leveled threshold
    rcases o.logLevel with _ | _ | name
    · simp
    · cases env.debugging <;> simp
    · simp
  rcases hlevel with ⟨hlevel, level, hthreshold⟩ | ⟨hlevel, hthreshold⟩
  · simp only [run, hthreshold, hlevel, not_true, false_and, false_or, true_and]
    rw [StateT.run_bind]
    exact Iff.rfl
  · simp only [run, hthreshold, hlevel, not_false_iff, true_and, false_and, or_false]
    simp [eq_comm]

theorem crashes_iff {env : Log.Environment} :
    ((run Tree.disk env o).run t).1.ending = .crash c ↔ Crashes t env o c := by
  rw [ending_run_eq_crash_iff, ending_perform_eq_crash_iff, loadTemplate_eq_crash_iff]
  simp only [ofLoadFault_eq_crash_iff, ending_merge_eq_crash_iff]
  constructor
  · rintro (⟨hlevel, rfl⟩ | ⟨hlevel, (⟨hnull, rfl⟩ | ⟨bytes, e, hread, hdecode, rfl⟩) |
      ⟨source, hsource, hrest⟩⟩)
    · exact .level hlevel
    · exact .templatePath hlevel hnull
    · exact .templateBytes hlevel hread hdecode
    · rcases hrest with ⟨fault, hload, ⟨rfl, rfl⟩ | ⟨e, rfl, rfl⟩⟩ |
        ⟨d, hd, ⟨e, hnumber, rfl⟩ | ⟨template, outputs, hcompile, hrender, hdelivery⟩⟩
      · exact .dataPath hlevel hsource (loadDefinition_eq_blankPath_iff.1 hload)
      · obtain ⟨name, path, bytes, hawaits, hread, hfault⟩ := loadDefinition_eq_csv_iff.1 hload
        obtain rfl := eq_cellTooLong_of_tableOfBytes hfault
        exact .cell hlevel hsource hawaits hread hfault
      · exact .number hlevel hsource hd hnumber
      · exact .delivery hlevel ⟨source, template, hsource, hd, hcompile, hrender⟩ hdelivery
  · intro h
    cases h with
    | level hlevel => exact .inl ⟨hlevel, rfl⟩
    | templatePath hlevel hnull => exact .inr ⟨hlevel, .inl (.inl ⟨hnull, rfl⟩)⟩
    | templateBytes hlevel hread hdecode =>
      exact .inr ⟨hlevel, .inl (.inr ⟨_, _, hread, hdecode, rfl⟩)⟩
    | dataPath hlevel hsource hawaits =>
      have hload := loadDefinition_eq_blankPath_iff.2 hawaits
      exact .inr ⟨hlevel, .inr ⟨_, hsource, .inl ⟨_, hload, .inl ⟨rfl, rfl⟩⟩⟩⟩
    | cell hlevel hsource hawaits hread hfault =>
      have hload := loadDefinition_eq_csv_iff.2 ⟨_, _, _, hawaits, hread, hfault⟩
      exact .inr ⟨hlevel, .inr ⟨_, hsource, .inl ⟨_, hload, .inr ⟨_, rfl, rfl⟩⟩⟩⟩
    | number hlevel hsource hd hnumber =>
      exact .inr ⟨hlevel, .inr ⟨_, hsource, .inr ⟨_, hd, .inl ⟨_, hnumber, rfl⟩⟩⟩⟩
    | delivery hlevel hrenders hdelivery =>
      obtain ⟨source, template, hsource, hd, hcompile, hrender⟩ := hrenders
      exact .inr ⟨hlevel, .inr ⟨source, hsource, .inr ⟨_, hd,
        .inr ⟨template, _, hcompile, hrender, hdelivery⟩⟩⟩⟩

theorem code_le_or_crash (ending : Ending) :
    (∃ code ≤ 3, ending.code? = some code) ∨ ∃ c, ending = .crash c := by
  cases ending with
  | crash c => exact .inr ⟨c, rfl⟩
  | _ => exact .inl ⟨_, by decide, rfl⟩

/-- A run ends with an exit code of at most three if nothing ends it without one, and what does is
told in full. -/
theorem ends_with_code_iff (t : Tree) (env : Log.Environment) (o : Options) :
    let ending := ((run Tree.disk env o).run t).1.ending
    ((∃ code ≤ 3, ending.code? = some code) ↔ ∀ c, ¬Crashes t env o c) ∧
      ∀ c, ending = .crash c ↔ Crashes t env o c := by
  intro ending
  refine ⟨⟨?_, fun hnone => ?_⟩, fun c => crashes_iff⟩
  · rintro ⟨code, -, hcode⟩ c hcrashes
    have hending : ending = .crash c := crashes_iff.2 hcrashes
    rw [hending] at hcode
    cases hcode
  · rcases code_le_or_crash ending with hcode | ⟨c, hending⟩
    · exact hcode
    · exact (hnone c (crashes_iff.1 hending)).elim

/-- A template that is no text ends the run without an exit code. -/
theorem ends_without_code :
    let t : Tree := ⟨[(["t"], .file [0xff]), (["v"], .file "x\n".toUTF8.toList)], []⟩
    ((run Tree.disk ⟨none, none⟩ smallOptions).run t).1.ending.code? = none := by
  intro t
  have hcrashes : Crashes t ⟨none, none⟩ smallOptions (.encoding ⟨0, 1, 0xff, .startByte⟩) :=
    .templateBytes nofun rfl rfl
  rw [crashes_iff.2 hcrashes]
  rfl

end MailMerge.CommandLine
