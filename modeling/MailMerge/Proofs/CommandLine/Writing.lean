/-
Writing the outputs of a run. They are written in order up to the first that cannot be, and then the
tree holds just those in front of it: each where its path leads, later ones in place of earlier ones
at the same place.
-/
import MailMerge.CommandLine.Output
import MailMerge.Proofs.Files.Tree

namespace MailMerge.CommandLine

open MailMerge.Files

variable {t t₁ t' : Tree} {path : Path} {text : String} {outputs rest : List (Path × String)}
  {fault : Files.Fault} {l : Location}

/-! ## One output -/

theorem run_writeOutput (t : Tree) (path : Path) (text : String) :
    (writeOutput Tree.disk path text).run t =
      match (Tree.disk.ensureDirectory path.parent).run t with
      | (.ok (), t₁) =>
        match t₁.write path text.toUTF8.toList with
        | .ok t' => (.ok (), t')
        | .error fault => (.error fault, t₁)
      | (.error fault, t₁) => (.error fault, t₁) := by
  rw [writeOutput, StateT.run_bind]
  rcases (Tree.disk.ensureDirectory path.parent).run t with ⟨_ | _, t₁⟩ <;> rfl

/-- An output is written where its path leads. One that cannot be leaves all files as they are. -/
theorem changes_writeOutput (t : Tree) (path : Path) (text : String) :
    match (writeOutput Tree.disk path text).run t with
    | (.ok (), t') => t.WroteFile path text.toUTF8.toList t'
    | (.error _, t') => t.SameFiles t' := by
  have hsame := Tree.leaves_ensureDirectory path.parent t
  rw [run_writeOutput]
  rcases hmade : (Tree.disk.ensureDirectory path.parent).run t with ⟨_ | _, t₁⟩ <;>
    rw [hmade] at hsame
  · exact hsame
  · cases hwrite : t₁.write path text.toUTF8.toList with
    | error fault => simpa only [hwrite] using hsame
    | ok t' => simpa only [hwrite] using hsame.wroteFile (Tree.wroteFile_of_write hwrite)

/-! ## Several outputs -/

/-- The text of the last output whose path leads to a place. -/
def lastAt (t : Tree) (outputs : List (Path × String)) (l : Location) : Option String :=
  (outputs.findRev? fun output => (t.locate output.1).toOption = some l).map (·.2)

theorem lastAt_nil (t : Tree) (l : Location) : lastAt t [] l = none :=
  rfl

theorem lastAt_cons (t : Tree) (path : Path) (text : String) (rest : List (Path × String))
    (l : Location) : lastAt t ((path, text) :: rest) l =
      (lastAt t rest l).or (if (t.locate path).toOption = some l then some text else none) := by
  unfold lastAt
  rw [List.findRev?]
  cases rest.findRev? fun output => decide ((t.locate output.1).toOption = some l) with
  | some output => rfl
  | none =>
    by_cases h : (t.locate path).toOption = some l
    · simp [h]
    · simp [h]

/-- Outputs further behind come first. -/
theorem lastAt_append (t : Tree) (outputs rest : List (Path × String)) (l : Location) :
    lastAt t (outputs ++ rest) l = (lastAt t rest l).or (lastAt t outputs l) := by
  induction outputs with
  | nil => rw [lastAt_nil, Option.or_none, List.nil_append]
  | cons output outputs ih => rw [List.cons_append, lastAt_cons, ih, lastAt_cons, Option.or_assoc]

theorem lastAt_eq_none_iff :
    lastAt t outputs l = none ↔ ∀ output ∈ outputs, t.locate output.1 ≠ .ok l := by
  induction outputs with
  | nil => simp [lastAt_nil]
  | cons output outputs ih =>
    rw [lastAt_cons, Option.or_eq_none_iff, ih, List.forall_mem_cons, and_comm]
    cases t.locate output.1 <;> simp [Except.toOption]

/-- Different paths without double dots, all from one root, lead to different places. -/
theorem lastAt_drop_eq_none {paths : List Path} (hdistinct : paths.Nodup) {root : Root}
    (hplain : ∀ path ∈ paths, path.root = root ∧ ".." ∉ path.names) (texts : List String) {i : Nat}
    (hi : paths[i]? = some path) (hlocate : t.locate path = .ok l) :
    lastAt t ((paths.zip texts).drop (i + 1)) l = none := by
  rw [lastAt_eq_none_iff]
  intro later hmem hlater
  obtain ⟨k, hk⟩ := List.getElem?_of_mem hmem
  rw [List.getElem?_drop, List.getElem?_zip_eq_some] at hk
  obtain ⟨hroot, hdots⟩ := hplain path (List.mem_of_getElem? hi)
  obtain ⟨hroot', hdots'⟩ := hplain later.1 (List.mem_of_getElem? hk.1)
  have hplace := (Tree.eq_of_locate hdots hlocate).symm.trans (Tree.eq_of_locate hdots' hlater)
  rw [hroot, hroot', List.append_cancel_left_eq] at hplace
  have hsame : path = later.1 :=
    calc
      path = ⟨path.root, path.names⟩ := rfl
      _ = ⟨later.1.root, later.1.names⟩ := by rw [hroot, hroot', hplace]
      _ = later.1 := rfl
  have hlt : i < paths.length := (List.getElem?_eq_some_iff.1 hi).1
  have hindex : i = i + 1 + k :=
    (List.getElem?_inj hlt hdistinct).1 (hi.trans (hsame ▸ hk.1.symm))
  omega

/-- Some outputs were written: the files hold the last of them whose paths lead there, and what they
held before where none of the paths leads. Besides nothing but directories was added. -/
structure Wrote (t : Tree) (outputs : List (Path × String)) (t' : Tree) : Prop where
  grown : t.Grown t'
  located : ∀ output ∈ outputs, ∃ l, t'.locate output.1 = .ok l
  content : ∀ l, t'.content? l =
    ((lastAt t' outputs l).map (·.toUTF8.toList)).or (t.content? l)

namespace Wrote

theorem nil (h : t.SameFiles t') : Wrote t [] t' :=
  ⟨h.grown, nofun, h.content⟩

theorem cons (hfirst : t.WroteFile path text.toUTF8.toList t₁) (hrest : Wrote t₁ rest t') :
    Wrote t ((path, text) :: rest) t' := by
  obtain ⟨hgrown, l₀, hlocate, hcontent⟩ := hfirst
  have hlocate' := hrest.grown.locate hlocate
  refine ⟨hgrown.trans hrest.grown, ?_, fun l => ?_⟩
  · intro output hmem
    rcases List.mem_cons.1 hmem with rfl | hmem
    · exact ⟨l₀, hlocate'⟩
    · exact hrest.located output hmem
  · rw [hrest.content, hcontent, lastAt_cons, hlocate']
    cases lastAt t' rest l with
    | some text => rfl
    | none =>
      by_cases h : l = l₀
      · simp [h, Except.toOption]
      · simp [h, Ne.symm h, Except.toOption]

/-- The file of an output holds the last of those behind it at the same place, or else its text. -/
theorem read_eq_ok (h : Wrote t outputs t') {i : Nat} (hi : outputs[i]? = some (path, text)) :
    ∃ l, t'.locate path = .ok l ∧
      t'.read path = .ok ((lastAt t' (outputs.drop (i + 1)) l).getD text).toUTF8.toList := by
  obtain ⟨l, hlocate⟩ := h.located _ (List.mem_of_getElem? hi)
  refine ⟨l, hlocate, Tree.read_eq_ok_iff.2 ⟨l, hlocate, ?_⟩⟩
  obtain ⟨hlt, hget⟩ := List.getElem?_eq_some_iff.1 hi
  have hsplit : outputs = outputs.take i ++ (path, text) :: outputs.drop (i + 1) := by
    rw [← hget, List.getElem_cons_drop hlt, List.take_append_drop]
  have hlast : lastAt t' outputs l = some ((lastAt t' (outputs.drop (i + 1)) l).getD text) := by
    rw [hsplit, lastAt_append, lastAt_cons, hlocate, ← hsplit]
    cases lastAt t' (outputs.drop (i + 1)) l <;> simp [Except.toOption]
  rw [h.content, hlast]
  rfl

end Wrote

theorem run_writeOutputs_cons (t : Tree) (path : Path) (text : String)
    (rest : List (Path × String)) :
    (writeOutputs Tree.disk ((path, text) :: rest)).run t =
      match (writeOutput Tree.disk path text).run t with
      | (.ok (), t₁) => (writeOutputs Tree.disk rest).run t₁
      | (.error fault, t₁) => (.error fault, t₁) := by
  rw [writeOutputs, StateT.run_bind]
  rcases (writeOutput Tree.disk path text).run t with ⟨_ | _, t₁⟩ <;> rfl

/-- Behind an output that is written the others start from the tree that holds it. -/
theorem writeOutputs_cons_of_ok (h : (writeOutput Tree.disk path text).run t = (.ok (), t₁)) :
    (writeOutputs Tree.disk ((path, text) :: rest)).run t = (writeOutputs Tree.disk rest).run t₁ := by
  rw [run_writeOutputs_cons, h]

theorem wrote_of_writeOutputs (h : (writeOutputs Tree.disk outputs).run t = (.ok (), t')) :
    Wrote t outputs t' := by
  induction outputs generalizing t with
  | nil =>
    cases h
    exact .nil (.refl _)
  | cons output rest ih =>
    obtain ⟨path, text⟩ := output
    have hfirst := changes_writeOutput t path text
    rw [run_writeOutputs_cons] at h
    split at h
    · rename_i t₁ hrun
      rw [hrun] at hfirst
      exact .cons hfirst (ih h)
    · cases h

/-- The first output that cannot be written ends the writing, with those in front of it written. -/
theorem stopped_of_writeOutputs
    (h : (writeOutputs Tree.disk outputs).run t = (.error fault, t')) :
    ∃ before path text after t₁, outputs = before ++ (path, text) :: after ∧
      (writeOutputs Tree.disk before).run t = (.ok (), t₁) ∧
      (writeOutput Tree.disk path text).run t₁ = (.error fault, t') ∧ Wrote t before t' := by
  induction outputs generalizing t with
  | nil => cases h
  | cons output rest ih =>
    obtain ⟨path, text⟩ := output
    have hfirst := changes_writeOutput t path text
    rw [run_writeOutputs_cons] at h
    split at h
    · rename_i t₁ hrun
      rw [hrun] at hfirst
      obtain ⟨before, path', text', after, t₂, rfl, hbefore, hfailed, hwrote⟩ := ih h
      refine ⟨(path, text) :: before, path', text', after, t₂, rfl, ?_, hfailed,
        .cons hfirst hwrote⟩
      rw [writeOutputs_cons_of_ok hrun]
      exact hbefore
    · rename_i hrun
      cases h
      rw [hrun] at hfirst
      exact ⟨[], path, text, rest, t, rfl, rfl, hrun, .nil hfirst⟩

end MailMerge.CommandLine
