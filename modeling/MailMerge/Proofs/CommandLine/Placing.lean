/-
Where the outputs of a run go. A name that is made up from the template and the row is a single name,
so its file is inside of the output directory. A name that a record gives is a path of its own: its
file is inside if the path, taken from the directory, stays in it.
-/
import Mathlib.Data.List.Basic
import MailMerge.CommandLine.Output
import MailMerge.Proofs.Files.Inside

namespace MailMerge.Files

/-! ## Single names -/

theorem splitSlashes_cons (c : Char) (cs : List Char) :
    splitSlashes (c :: cs) =
      if c = '/' then [] :: splitSlashes cs
      else
        match splitSlashes cs with
        | [] => [[c]]
        | piece :: rest => (c :: piece) :: rest :=
  rfl

/-- No slash stands between two slashes. -/
theorem notMem_splitSlashes (cs : List Char) : ∀ piece ∈ splitSlashes cs, '/' ∉ piece := by
  induction cs with
  | nil => simp [splitSlashes]
  | cons c cs ih =>
    rw [splitSlashes_cons]
    split
    · exact List.forall_mem_cons.2 ⟨List.not_mem_nil, ih⟩
    · rename_i hc
      generalize splitSlashes cs = pieces at ih
      cases pieces with
      | nil => simpa using Ne.symm hc
      | cons piece rest =>
        rw [List.forall_mem_cons] at ih
        refine List.forall_mem_cons.2 ⟨?_, ih.2⟩
        rw [List.mem_cons, not_or]
        exact ⟨Ne.symm hc, ih.1⟩

theorem splitSlashes_of_notMem {cs : List Char} (h : '/' ∉ cs) : splitSlashes cs = [cs] := by
  induction cs with
  | nil => rfl
  | cons c cs ih =>
    rw [List.mem_cons, not_or] at h
    rw [splitSlashes_cons, if_neg (Ne.symm h.1), ih h.2]

namespace Path

/-- No slash stands in the last name of a path. -/
theorem notMem_name_ofString (s : String) : '/' ∉ (ofString s).name.toList := by
  unfold name
  rcases List.eq_nil_or_concat' (ofString s).names with hnil | ⟨front, last, hlast⟩
  · rw [hnil]
    exact List.not_mem_nil
  · have hmem : last ∈ (ofString s).names := by simp [hlast]
    obtain ⟨piece, hpiece, rfl⟩ := List.mem_map.1 (List.mem_filter.1 hmem).1
    rw [hlast, List.getLastD_concat, String.toList_ofList]
    exact notMem_splitSlashes _ piece hpiece

/-- A name is cut into pieces of itself. -/
theorem mem_of_mem_splitName {c : Char} {name : List Char}
    (h : c ∈ (splitName name).1 ∨ c ∈ (splitName name).2) : c ∈ name ∨ c = '.' := by
  unfold splitName at h
  simp only at h
  split at h
  · exact .inl (h.resolve_right List.not_mem_nil)
  · rcases h with h | h
    · exact .inl (List.mem_of_mem_take h)
    · rcases List.mem_cons.1 h with rfl | h
      · exact .inr rfl
      · have hmem := (List.takeWhile_sublist _).subset (List.mem_reverse.1 h)
        exact .inl (List.mem_reverse.1 hmem)

theorem notMem_stem_suffix (s : String) :
    '/' ∉ (ofString s).stem.toList ∧ '/' ∉ (ofString s).suffix.toList := by
  have hname := notMem_name_ofString s
  rw [stem, suffix, String.toList_ofList, String.toList_ofList]
  constructor <;> intro h
  · exact (mem_of_mem_splitName (.inl h)).elim hname (by decide)
  · exact (mem_of_mem_splitName (.inr h)).elim hname (by decide)

/-- A text without slashes is a single name, unless it is empty or a single dot. -/
theorem ofString_of_notMem {s : String} (h : '/' ∉ s.toList) (hne : s ≠ "") (hdot : s ≠ ".") :
    ofString s = ⟨.relative, [s]⟩ := by
  have htake : s.toList.takeWhile (· = '/') = [] := by
    generalize s.toList = cs at h
    cases cs with
    | nil => rfl
    | cons c cs =>
      rw [List.mem_cons, not_or] at h
      exact List.takeWhile_cons_of_neg (by simpa using Ne.symm h.1)
  unfold ofString
  rw [htake, splitSlashes_of_notMem h]
  simp [hne, hdot]

end Path

end MailMerge.Files

namespace MailMerge.CommandLine

open MailMerge.Data MailMerge.Files

/-! ## Outputs -/

/-- A name that is made up is a single name. -/
theorem ofString_generated (template : String) (row : Nat) :
    ∃ name, name ≠ ".." ∧
      Path.ofString ((Path.ofString template).stem ++ "-" ++ toString row ++
        (Path.ofString template).suffix) = ⟨.relative, [name]⟩ := by
  obtain ⟨hstem, hsuffix⟩ := Path.notMem_stem_suffix template
  generalize (Path.ofString template).stem = stem at hstem
  generalize (Path.ofString template).suffix = suffix at hsuffix
  have hdash : '-' ∈ (stem ++ "-" ++ toString row ++ suffix).toList := by simp
  have hne : ∀ other : String, '-' ∉ other.toList → stem ++ "-" ++ toString row ++ suffix ≠ other := by
    rintro other hother rfl
    exact hother hdash
  have hrow : '/' ∉ Nat.toDigits 10 row := by
    intro h
    have hdigit := Nat.isDigit_of_mem_toDigits (by decide) (by decide) h
    simp [Char.isDigit] at hdigit
  refine ⟨_, hne ".." (by decide), Path.ofString_of_notMem ?_ (hne "" (by decide)) (hne "." (by decide))⟩
  simp [hstem, hsuffix, hrow]

/-- The file of one output is inside of the directory if the record names none, and else if the path
that it names stays in the directory. -/
theorem isInside_outputPath_iff (template : String) (directory : Path) (row : Nat) (record : Record) :
    (outputPath (.ofString template) directory row record).IsInside directory ↔
      ∀ name, record.get? outfileField = some name → (Path.ofString name).StaysIn directory := by
  unfold outputPath
  have hmade : (directory.join (.ofString ((Path.ofString template).stem ++ "-" ++ toString row ++
      (Path.ofString template).suffix))).IsInside directory := by
    obtain ⟨name, hname, hpath⟩ := ofString_generated template row
    rw [hpath, Path.isInside_join_iff]
    refine (Path.staysIn_all_iff ⟨.relative, [name]⟩).2 ⟨rfl, ?_⟩ directory
    simp [Path.ups, Path.resolved, Path.descend, hname]
  split
  · rename_i hnone
    refine iff_of_true hmade ?_
    intro name h
    rw [hnone] at h
    cases h
  · rename_i hempty
    have hstays : (Path.ofString "").StaysIn directory :=
      (Path.staysIn_all_iff _).2 ⟨rfl, rfl⟩ directory
    refine iff_of_true hmade ?_
    intro name h
    rw [hempty] at h
    cases h
    exact hstays
  · rename_i name _ hname
    rw [Path.isInside_join_iff, hname]
    simp

/-- All outputs go inside of the directory just if all paths that records name stay in it. -/
theorem isInside_outputPaths_iff (template : String) (d : Definition) (directory : Path) :
    (∀ path ∈ outputPaths (.ofString template) d directory, path.IsInside directory) ↔
      ∀ record ∈ d.vars.records, ∀ name, record.get? outfileField = some name →
        (Path.ofString name).StaysIn directory := by
  unfold outputPaths
  constructor
  · intro h record hrecord
    obtain ⟨i, hi⟩ := List.getElem?_of_mem hrecord
    rw [← isInside_outputPath_iff template directory (i + 1)]
    refine h _ (List.mem_of_getElem? (i := i) ?_)
    rw [List.getElem?_mapIdx, hi]
    rfl
  · intro h path hpath
    obtain ⟨i, hi, rfl⟩ := List.mem_mapIdx.1 hpath
    exact (isInside_outputPath_iff template directory (i + 1) _).2 (h _ (List.getElem_mem hi))

/-- A record names a file elsewhere. -/
theorem isInside_outputPaths_absolute :
    ¬∀ path ∈ outputPaths (.ofString "t") (.ofRecords [⟨[("$outfile", "/x")]⟩] []) (.ofString "out"),
      path.IsInside (.ofString "out") := by
  intro h
  have hinside : (Path.ofString "/x").IsInside (.ofString "out") := h _ List.mem_cons_self
  exact absurd hinside.1 (by decide)

end MailMerge.CommandLine
