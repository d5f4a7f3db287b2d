/-
The phases of a run. The first that fails ends it, and nothing is printed or written before all of
them but the last are over. What the last one writes is told by the places that the paths lead to:
paths may lead to one place, though they are spelled differently, and then the last output stays.
-/
import Mathlib.Data.List.Forall2
import MailMerge.CommandLine.Run
import MailMerge.Proofs.CommandLine.Loading
import MailMerge.Proofs.CommandLine.Writing
import MailMerge.Proofs.Markup.Reading
import MailMerge.Proofs.Merge.Batch

namespace MailMerge.CommandLine

open MailMerge.Data MailMerge.Files MailMerge.Markup MailMerge.Merge

variable {t t' : Tree} {o : Options} {code : Nat}

/-! ## Loading changes nothing -/

theorem leaves_loadTemplate (path : Path) : Tree.Leaves Eq (loadTemplate Tree.disk path) := by
  unfold loadTemplate
  refine .bind (Tree.leaves_read path) fun bytes => ?_
  split
  · exact .pure _
  · exact .pure _
  · split <;> exact .pure _

theorem leaves_loadTable (name : String) (path : Given Path) :
    Tree.Leaves Eq (loadTable Tree.disk name path) := by
  cases path with
  | blank => exact .pure _
  | value path =>
    refine .bind (Tree.leaves_read path) fun bytes => ?_
    split <;> exact .pure _

theorem leaves_loadTables (loaded : List (String × Table)) (paths : List (Given Path)) :
    Tree.Leaves Eq (loadTables Tree.disk loaded paths) := by
  induction paths generalizing loaded with
  | nil => exact .pure _
  | cons path paths ih =>
    cases path with
    | blank => exact .pure _
    | value path =>
      rw [loadTables]
      split
      · exact .pure _
      · split
        · exact .pure _
        · refine .bind (leaves_loadTable _ _) fun table => ?_
          split
          · exact ih _
          · exact .pure _

theorem leaves_loadDefinition (vars : Given Path) (tables : List (Given Path)) :
    Tree.Leaves Eq (loadDefinition Tree.disk vars tables) := by
  refine .bind (leaves_loadTables [] tables) fun loaded => ?_
  split
  · exact .pure _
  · refine .bind (leaves_loadTable _ _) fun table => ?_
    split <;> exact .pure _

/-! ## What is loaded -/

theorem loadTemplate_eq_ok {path : Path} {bytes : List UInt8} {source : String}
    (hread : t.read path = .ok bytes) (hbytes : templateOfBytes bytes = .ok source) :
    ((loadTemplate Tree.disk path).run t).1 = .ok source := by
  have hrun : ((Tree.disk.read path).run t).1 = .ok bytes := hread
  rw [loadTemplate, (Tree.leaves_read path).run_bind, hrun]
  simp only [hbytes]
  rfl

/-- A definition of a vars table only. -/
theorem loadDefinition_eq_ok {path : Path} {bytes : List UInt8} {table : Table}
    (hread : t.read path = .ok bytes) (hbytes : tableOfBytes varsName bytes = .ok table) :
    ((loadDefinition Tree.disk (.value path) []).run t).1 = .ok ⟨table, []⟩ := by
  have hrun : ((Tree.disk.read path).run t).1 = .ok bytes := hread
  have htable : ((loadTable Tree.disk varsName (.value path)).run t).1 = .ok table := by
    rw [loadTable, (Tree.leaves_read path).run_bind, hrun]
    exact hbytes
  rw [loadDefinition, (leaves_loadTables [] []).run_bind, loadTables]
  show ((loadTable Tree.disk varsName (.value path) >>= _).run t).1 = _
  rw [(leaves_loadTable varsName (.value path)).run_bind, htable]
  rfl

/-! ## Exit codes -/

theorem code_of_loadTemplate {path : Path} {ending : Ending}
    (h : ((loadTemplate Tree.disk path).run t).1 = .error ending)
    (hcode : ending.code? = some code) : code = 1 := by
  rw [loadTemplate, (Tree.leaves_read path).run_bind] at h
  split at h
  · cases h
    cases hcode
  · cases h
    exact (Option.some.inj hcode).symm
  · split at h
    · cases h
    · cases h
      cases hcode
    · cases h
      exact (Option.some.inj hcode).symm

theorem code_of_ofLoadFault {fault : LoadFault}
    (h : (Ending.ofLoadFault fault).code? = some code) : code = 1 := by
  cases fault with
  | csv e => cases h
  | blankPath => cases h
  | _ => exact (Option.some.inj h).symm

theorem code_of_ofParseError {template : Path} {e : ParseError}
    (h : (Ending.ofParseError template e).code? = some code) : code = 2 := by
  cases e with
  | syntaxError e => exact (Option.some.inj h).symm
  | valueError e => cases h

/-- Of the faults that end the writing, those of the system have an exit code. -/
theorem os_of_ofWriteFault {fault : Files.Fault}
    (h : (Ending.ofWriteFault fault).code? = some code) :
    code = 1 ∧ ∃ e path, fault = .os e path := by
  cases fault with
  | nullCharacter => cases h
  | os e path => exact ⟨(Option.some.inj h).symm, e, path, rfl⟩

/-! ## Phases -/

/-- Every record has its file. -/
theorem length_givenPaths {template : Path} {d : Definition} {directory : Given Path}
    {paths : List Path} (h : givenPaths template d directory = .ok paths) :
    paths.length = d.vars.records.length := by
  cases directory with
  | blank =>
    rw [givenPaths] at h
    split at h
    · rename_i hrows
      cases h
      rw [Table.records, hrows]
      rfl
    · cases h
  | value directory =>
    cases h
    exact List.length_mapIdx

theorem length_of_renderAll {template : Template} {d : Definition} {outputs : List String}
    (h : template.renderAll d = .ok outputs) : outputs.length = d.vars.records.length :=
  (Batch.result_eq_ok_iff.1 h).length_eq.symm

/-- How writing some outputs ends with an exit code: all of them are written, or the first that the
system refuses ends the run, and just those in front of it are written. -/
inductive Written (t : Tree) (outputs : List (Path × String)) : Nat → Tree → Prop
  | all {last : Tree} (hall : (writeOutputs Tree.disk outputs).run t = (.ok (), last))
      (hwrote : Wrote t outputs last) : Written t outputs 0 last
  | upTo {before after : List (Path × String)} {path refused : Path} {text : String}
      {between last : Tree} {e : OsError} (hsplit : outputs = before ++ (path, text) :: after)
      (hbefore : (writeOutputs Tree.disk before).run t = (.ok (), between))
      (hrefused : (writeOutput Tree.disk path text).run between = (.error (.os e refused), last))
      (hwrote : Wrote t before last) : Written t outputs 1 last

/-- What becomes of the outputs of a run that ends with an exit code: without a directory all of them
are printed, and with one nothing is printed and they are written, each to its file. -/
def Delivered (t : Tree) (o : Options) (d : Definition) (outputs : List String) (code : Nat)
    (output : String) (t' : Tree) : Prop :=
  match o.out with
  | none => code = 0 ∧ output = String.intercalate "\n" outputs ++ "\n" ∧ t' = t
  | some directory =>
    output = "" ∧ ∃ paths, givenPaths o.template d directory = .ok paths ∧
      paths.length = outputs.length ∧ Written t (paths.zip outputs) code t'

/-- What a run gives that ends with an exit code. The first phase that fails decides, and nothing is
printed or changed then. -/
def Phased (t : Tree) (o : Options) (code : Nat) (output : String) (t' : Tree) : Prop :=
  match ((loadTemplate Tree.disk o.template).run t).1,
    ((loadDefinition Tree.disk o.vars o.tables).run t).1 with
  | .ok source, .ok d =>
    match Template.compile source with
    | .error _ => code = 2 ∧ output = "" ∧ t' = t
    | .ok template =>
      match template.renderAll d with
      | .error _ => code = 3 ∧ output = "" ∧ t' = t
      | .ok outputs => Delivered t o d outputs code output t'
  | _, _ => code = 1 ∧ output = "" ∧ t' = t

theorem run_deliver {directory : Given Path} (hout : o.out = some directory) {paths : List Path}
    {d : Definition} (hpaths : givenPaths o.template d directory = .ok paths)
    (outputs : List String) (events : List Log.Event) (t : Tree) :
    (deliver Tree.disk o d outputs events).run t =
      match (writeOutputs Tree.disk (paths.zip outputs)).run t with
      | (.error fault, t') => (⟨.ofWriteFault fault, "", events⟩, t')
      | (.ok (), t') =>
        (⟨.done, "", events ++ [.wroteOutputs outputs.length directory.shown]⟩, t') := by
  simp only [deliver, hout, hpaths]
  rw [StateT.run_bind]
  rcases (writeOutputs Tree.disk (paths.zip outputs)).run t with ⟨_ | _, t'⟩ <;> rfl

theorem delivered_deliver {d : Definition} {outputs : List String} {events : List Log.Event}
    {r : Run} (hlength : outputs.length = d.vars.records.length)
    (hrun : (deliver Tree.disk o d outputs events).run t = (r, t'))
    (hcode : r.ending.code? = some code) : Delivered t o d outputs code r.output t' := by
  unfold Delivered
  cases hout : o.out with
  | none =>
    rw [deliver, hout] at hrun
    cases hrun
    exact ⟨(Option.some.inj hcode).symm, rfl, rfl⟩
  | some directory =>
    cases hpaths : givenPaths o.template d directory with
    | error fault =>
      simp only [deliver, hout, hpaths] at hrun
      cases hrun
      cases hcode
    | ok paths =>
      rw [run_deliver hout hpaths] at hrun
      split at hrun
      · rename_i fault t₁ hwrite
        cases hrun
        obtain ⟨rfl, e, refused, rfl⟩ := os_of_ofWriteFault hcode
        obtain ⟨before, path, text, after, t₂, hsplit, hbefore, hrefused, hwrote⟩ :=
          stopped_of_writeOutputs hwrite
        exact ⟨rfl, paths, hpaths, (length_givenPaths hpaths).trans hlength.symm,
          .upTo hsplit hbefore hrefused hwrote⟩
      · rename_i t₁ hwrite
        cases hrun
        cases hcode
        exact ⟨rfl, paths, hpaths, (length_givenPaths hpaths).trans hlength.symm,
          .all hwrite (wrote_of_writeOutputs hwrite)⟩

theorem run_perform (o : Options) (t : Tree) :
    (perform Tree.disk o).run t =
      match ((loadTemplate Tree.disk o.template).run t).1 with
      | .error ending => (⟨ending, "", []⟩, t)
      | .ok source =>
        match ((loadDefinition Tree.disk o.vars o.tables).run t).1 with
        | .error fault => (⟨.ofLoadFault fault, "", []⟩, t)
        | .ok d => (merge Tree.disk o source d).run t := by
  rw [perform, (leaves_loadTemplate o.template).run_bind]
  cases ((loadTemplate Tree.disk o.template).run t).1 with
  | error ending => rfl
  | ok source =>
    simp only
    rw [(leaves_loadDefinition o.vars o.tables).run_bind]
    cases ((loadDefinition Tree.disk o.vars o.tables).run t).1 <;> rfl

theorem phased_perform {r : Run} (hrun : (perform Tree.disk o).run t = (r, t'))
    (hcode : r.ending.code? = some code) : Phased t o code r.output t' := by
  rw [run_perform] at hrun
  unfold Phased
  cases hsource : ((loadTemplate Tree.disk o.template).run t).1 with
  | error ending =>
    rw [hsource] at hrun
    cases hrun
    exact ⟨code_of_loadTemplate hsource hcode, rfl, rfl⟩
  | ok source =>
    rw [hsource] at hrun
    cases hd : ((loadDefinition Tree.disk o.vars o.tables).run t).1 with
    | error fault =>
      rw [hd] at hrun
      cases hrun
      exact ⟨code_of_ofLoadFault hcode, rfl, rfl⟩
    | ok d =>
      simp only [hd, merge] at hrun ⊢
      cases hcompile : Template.compile source with
      | error e =>
        rw [hcompile] at hrun
        cases hrun
        exact ⟨code_of_ofParseError hcode, rfl, rfl⟩
      | ok template =>
        simp only [hcompile] at hrun ⊢
        cases hrender : template.renderAll d with
        | error e =>
          rw [hrender] at hrun
          cases hrun
          exact ⟨(Option.some.inj hcode).symm, rfl, rfl⟩
        | ok outputs =>
          simp only [hrender] at hrun ⊢
          exact delivered_deliver (length_of_renderAll hrender) hrun hcode

theorem perform_of_run {env : Log.Environment} {r : Run} (hrun : (run Tree.disk env o).run t = (r, t'))
    (hcode : r.ending.code? = some code) : ∃ r₁, (perform Tree.disk o).run t = (r₁, t') ∧
      r₁.ending = r.ending ∧ r₁.output = r.output := by
  rw [run] at hrun
  split at hrun
  · cases hrun
    cases hcode
  · rw [StateT.run_bind] at hrun
    rcases hperform : (perform Tree.disk o).run t with ⟨r₁, t₁⟩
    rw [hperform] at hrun
    cases hrun
    exact ⟨r₁, rfl, rfl, rfl⟩

/-- The outputs that a run has to deliver, if it gets that far. -/
def Renders (t : Tree) (o : Options) (d : Definition) (outputs : List String) : Prop :=
  ∃ source template, ((loadTemplate Tree.disk o.template).run t).1 = .ok source ∧
    ((loadDefinition Tree.disk o.vars o.tables).run t).1 = .ok d ∧
    Template.compile source = .ok template ∧ template.renderAll d = .ok outputs

/-- A run that has rendered its outputs ends as the writing of them ends. -/
theorem run_of_renders (env : Log.Environment) {level : Log.Level} {d : Definition}
    {outputs : List String} {directory : Given Path} {paths : List Path}
    {result : Except Files.Fault Unit} (hlevel : threshold env o.logLevel = .ok level)
    (hrenders : Renders t o d outputs) (hout : o.out = some directory)
    (hpaths : givenPaths o.template d directory = .ok paths)
    (hwrite : (writeOutputs Tree.disk (paths.zip outputs)).run t = (result, t')) :
    ∃ events, (run Tree.disk env o).run t =
      (⟨match result with
        | .ok () => .done
        | .error fault => .ofWriteFault fault, "", events⟩, t') := by
  obtain ⟨source, template, hsource, hd, hcompile, hrender⟩ := hrenders
  have hperform : ∃ events, (perform Tree.disk o).run t =
      (⟨match result with
        | .ok () => .done
        | .error fault => .ofWriteFault fault, "", events⟩, t') := by
    rw [run_perform, hsource]
    simp only [hd, merge, hcompile, hrender]
    rw [run_deliver hout hpaths, hwrite]
    cases result <;> exact ⟨_, rfl⟩
  obtain ⟨events, hperform⟩ := hperform
  refine ⟨Log.shown level events, ?_⟩
  simp only [run, hlevel]
  rw [StateT.run_bind, hperform]
  rfl

/-! ## A small tree -/

/-- A template that asks for one field, beside a vars table. -/
def smallTree (vars : String) : Tree :=
  ⟨[(["t"], .file "\x7b{ x }\x7d".toUTF8.toList), (["v"], .file vars.toUTF8.toList)], []⟩

/-- What asks for the outputs of a small tree in the directory `out`. -/
def smallOptions : Options :=
  ⟨.ofString "t", .value (.ofString "v"), [], some (.value (.ofString "out")), none, .text⟩

theorem renders_smallTree {vars : String} {table : Table} {outputs : List String}
    (htable : Csv.tableOfLines varsName (Text.cutLines .universal vars.toList) = .ok table)
    (hrender : Template.renderAll ⟨[.expansion ⟨[], "x"⟩], "\x7b{ x }\x7d"⟩ ⟨table, []⟩ = .ok outputs) :
    Renders (smallTree vars) smallOptions ⟨table, []⟩ outputs := by
  have hsource : ((loadTemplate Tree.disk smallOptions.template).run (smallTree vars)).1 =
      .ok "\x7b{ x }\x7d" :=
    loadTemplate_eq_ok rfl (templateOfBytes_toUTF8 _)
  have hbytes : tableOfBytes varsName vars.toUTF8.toList = .ok table := by
    rw [tableOfBytes_toUTF8, htable]
    rfl
  have hd : ((loadDefinition Tree.disk smallOptions.vars smallOptions.tables).run
      (smallTree vars)).1 = .ok ⟨table, []⟩ :=
    loadDefinition_eq_ok rfl hbytes
  have hparse : parse "\x7b{ x }\x7d" = .ok [.expansion ⟨[], "x"⟩] := parse_of_within 8 rfl
  have hcompile : Template.compile "\x7b{ x }\x7d" =
      .ok ⟨[.expansion ⟨[], "x"⟩], "\x7b{ x }\x7d"⟩ := by
    rw [Template.compile, hparse]
    rfl
  exact ⟨_, _, hsource, hd, hcompile, hrender⟩

/-! ## Whole runs -/

theorem renders_of_phased {output : String} (h : Phased t o 0 output t') :
    ∃ d outputs, Renders t o d outputs ∧ Delivered t o d outputs 0 output t' := by
  unfold Phased at h
  split at h
  · rename_i source d hsource hd
    split at h
    · cases h.1
    · rename_i template hcompile
      split at h
      · cases h.1
      · rename_i outputs hrender
        exact ⟨d, outputs, ⟨source, template, hsource, hd, hcompile, hrender⟩, h⟩
  · cases h.1

/-- Every file holds its own output. -/
def HoldsAll (t : Tree) (paths : List Path) (outputs : List String) : Prop :=
  ∀ (i : Nat) (path : Path) (text : String), paths[i]? = some path → outputs[i]? = some text →
    t.read path = .ok text.toUTF8.toList

/-- Every file holds the last of the outputs whose paths lead there. -/
def HoldsLast (t : Tree) (paths : List Path) (outputs : List String) : Prop :=
  ∀ (i : Nat) (path : Path) (text : String), paths[i]? = some path → outputs[i]? = some text →
    ∃ l, t.locate path = .ok l ∧ t.read path =
      .ok ((lastAt t ((paths.zip outputs).drop (i + 1)) l).getD text).toUTF8.toList

/-- After a run that is done every output can be read back from its file, but for those that a later
one has taken the place of. There are none of these where all paths are different, have one root
and no double dots. -/
theorem read_after_run (t : Tree) (env : Log.Environment) (o : Options) {directory : Given Path}
    {r : Run} {t' : Tree} (hout : o.out = some directory)
    (hrun : (run Tree.disk env o).run t = (r, t')) (hcode : r.ending.code? = some 0) :
    ∃ d outputs paths, Renders t o d outputs ∧ givenPaths o.template d directory = .ok paths ∧
      paths.length = outputs.length ∧ HoldsLast t' paths outputs ∧
      ∀ root, paths.Nodup → (∀ path ∈ paths, path.root = root ∧ ".." ∉ path.names) →
        HoldsAll t' paths outputs := by
  obtain ⟨r₁, hperform, hending, -⟩ := perform_of_run hrun hcode
  obtain ⟨d, outputs, hrenders, hdelivered⟩ :=
    renders_of_phased (phased_perform hperform (hending ▸ hcode))
  unfold Delivered at hdelivered
  rw [hout] at hdelivered
  obtain ⟨-, paths, hpaths, hlength, hwritten⟩ := hdelivered
  have hlast : HoldsLast t' paths outputs := by
    intro i path text hpath htext
    cases hwritten with
    | all hall hwrote => exact hwrote.read_eq_ok (List.getElem?_zip_eq_some.2 ⟨hpath, htext⟩)
  refine ⟨d, outputs, paths, hrenders, hpaths, hlength, hlast, ?_⟩
  intro root hdistinct hplain i path text hpath htext
  obtain ⟨l, hlocate, hread⟩ := hlast i path text hpath htext
  rw [hread, lastAt_drop_eq_none hdistinct hplain outputs hpath hlocate]
  rfl

/-- Two rows name one file, each in its own way. -/
theorem read_after_run_respelled :
    let t := smallTree "x,$outfile\n1,a\n2,./a\n"
    ∃ events t', (run Tree.disk ⟨none, none⟩ smallOptions).run t = (⟨.done, "", events⟩, t') ∧
      t'.read (.ofString "out/a") = .ok "2".toUTF8.toList ∧
      ∃ d outputs paths, Renders t smallOptions d outputs ∧
        givenPaths smallOptions.template d (.value (.ofString "out")) = .ok paths ∧
        paths.length = outputs.length ∧ HoldsLast t' paths outputs := by
  intro t
  let t₁ := (t.put ["out"] .directory).put ["out", "a"] (.file "1".toUTF8.toList)
  let t' := t₁.put ["out", "a"] (.file "2".toUTF8.toList)
  have hrenders : Renders t smallOptions
      (.ofRecords [⟨[("x", "1"), ("$outfile", "a")]⟩, ⟨[("x", "2"), ("$outfile", "./a")]⟩] [])
      ["1", "2"] :=
    renders_smallTree rfl rfl
  have hfirst : (writeOutput Tree.disk (.ofString "out/a") "1").run t = (.ok (), t₁) := rfl
  have hsecond : (writeOutput Tree.disk (.ofString "out/./a") "2").run t₁ = (.ok (), t') := rfl
  have hwrite : (writeOutputs Tree.disk [(.ofString "out/a", "1"),
      (.ofString "out/./a", "2")]).run t = (.ok (), t') := by
    rw [writeOutputs_cons_of_ok hfirst, writeOutputs_cons_of_ok hsecond]
    rfl
  obtain ⟨events, hrun⟩ := run_of_renders ⟨none, none⟩ rfl hrenders rfl rfl hwrite
  obtain ⟨d, outputs, paths, hrenders, hpaths, hlength, hlast, -⟩ :=
    read_after_run t ⟨none, none⟩ smallOptions rfl hrun rfl
  exact ⟨events, t', hrun, rfl, d, outputs, paths, hrenders, hpaths, hlength, hlast⟩

/-- Two rows name one file, and the output of the first is lost though the run is done. -/
theorem output_lost :
    let t := smallTree "x,$outfile\n1,a\n2,a\n"
    let d : Definition :=
      .ofRecords [⟨[("x", "1"), ("$outfile", "a")]⟩, ⟨[("x", "2"), ("$outfile", "a")]⟩] []
    ∃ events t', (run Tree.disk ⟨none, none⟩ smallOptions).run t = (⟨.done, "", events⟩, t') ∧
      Renders t smallOptions d ["1", "2"] ∧
      ¬HoldsAll t' (outputPaths smallOptions.template d (.ofString "out")) ["1", "2"] := by
  intro t d
  let t₁ := (t.put ["out"] .directory).put ["out", "a"] (.file "1".toUTF8.toList)
  let t' := t₁.put ["out", "a"] (.file "2".toUTF8.toList)
  have hrenders : Renders t smallOptions d ["1", "2"] := renders_smallTree rfl rfl
  have hfirst : (writeOutput Tree.disk (.ofString "out/a") "1").run t = (.ok (), t₁) := rfl
  have hsecond : (writeOutput Tree.disk (.ofString "out/a") "2").run t₁ = (.ok (), t') := rfl
  have hwrite : (writeOutputs Tree.disk [(.ofString "out/a", "1"), (.ofString "out/a", "2")]).run t =
      (.ok (), t') := by
    rw [writeOutputs_cons_of_ok hfirst, writeOutputs_cons_of_ok hsecond]
    rfl
  obtain ⟨events, hrun⟩ := run_of_renders ⟨none, none⟩ rfl hrenders rfl rfl hwrite
  refine ⟨events, t', hrun, hrenders, fun h => ?_⟩
  have hread := h 0 (.ofString "out/a") "1" rfl rfl
  have hbytes : "2".toUTF8.toList ≠ "1".toUTF8.toList := by
    rw [Text.Utf8.toList_toUTF8, Text.Utf8.toList_toUTF8]
    decide
  exact hbytes (Except.ok.inj hread)

end MailMerge.CommandLine
