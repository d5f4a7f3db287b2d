/-
Where a path leads from a directory. Whatever its names are, a path amounts to some double dots and
then some names to go down. From a directory it takes back as many names as it has double dots, so
it stays inside if it goes down again by the names that it took back; a path that takes back none
stays inside of every directory.
-/
import Mathlib.Data.List.Basic
import Mathlib.Data.List.Induction
import MailMerge.Files.Path

namespace MailMerge.Files

namespace Path

variable {root : Root} {above names : List String} {name : String}

/-! ## Going up and down -/

theorem descend_of_ne (h : name ≠ "..") : descend root above name = name :: above :=
  if_pos h

/-- A double dot takes back a name. -/
theorem descend_up_cons {last : String} (h : last ≠ "..") :
    descend root (last :: above) ".." = above := by
  simp [descend, h]

/-- Above where a relative path starts, double dots are kept; above a root there is nothing. -/
theorem descend_up_replicate (root : Root) (n : Nat) (h : root ≠ .relative → n = 0) :
    descend root (List.replicate n "..") ".." =
      List.replicate (n + if root = .relative then 1 else 0) ".." := by
  cases n with
  | zero =>
    by_cases hroot : root = .relative <;> simp [descend, hroot]
  | succ n =>
    have hroot : root = .relative :=
      Decidable.byContradiction fun hroot => Nat.succ_ne_zero n (h hroot)
    simp [descend, hroot, List.replicate_succ]

theorem foldl_descend_of_notMem (h : ".." ∉ names) :
    names.foldl (descend root) above = names.reverse ++ above := by
  induction names generalizing above with
  | nil => rfl
  | cons name names ih =>
    rw [List.mem_cons, not_or] at h
    rw [List.foldl_cons, descend_of_ne (Ne.symm h.1), ih h.2, List.reverse_cons, List.append_assoc]
    rfl

/-- Double dots take back the names to go down, and then go on above the start of a relative path. -/
theorem foldl_descend_replicate {down : List String} (hdown : ".." ∉ down) {k : Nat}
    (hk : root ≠ .relative → k = 0) (n : Nat) :
    (List.replicate n "..").foldl (descend root) (down ++ List.replicate k "..") =
      down.drop n ++
        List.replicate (k + if root = .relative then n - down.length else 0) ".." := by
  induction n generalizing down k with
  | zero => simp
  | succ n ih =>
    rw [List.replicate_succ, List.foldl_cons]
    cases down with
    | nil =>
      have hroot : root ≠ .relative → k + (if root = .relative then 1 else 0) = 0 := by
        intro hroot
        simp [hroot, hk hroot]
      rw [List.nil_append, descend_up_replicate root k hk]
      refine (ih (show ".." ∉ [] from List.not_mem_nil) hroot).trans ?_
      by_cases hrelative : root = .relative
      · simp only [hrelative, if_true, List.drop_nil, List.length_nil, List.nil_append]
        congr 1
        omega
      · simp [hrelative]
    | cons last down =>
      rw [List.mem_cons, not_or] at hdown
      rw [List.cons_append, descend_up_cons (Ne.symm hdown.1), ih hdown.2 hk, List.drop_succ_cons,
        List.length_cons, Nat.add_sub_add_right]

/-- Names amount to some double dots and then some names to go down, wherever they are taken from. -/
theorem exists_foldl_descend (names : List String) :
    ∃ ups down, ".." ∉ down ∧ ∀ root above, names.foldl (descend root) above =
      (List.replicate ups ".." ++ down).foldl (descend root) above := by
  induction names using List.reverseRecOn with
  | nil => exact ⟨0, [], List.not_mem_nil, fun _ _ => rfl⟩
  | append_singleton names name ih =>
    obtain ⟨ups, down, hdown, hsame⟩ := ih
    by_cases hname : name = ".."
    · subst hname
      rcases List.eq_nil_or_concat' down with rfl | ⟨down, last, rfl⟩
      · refine ⟨ups + 1, [], List.not_mem_nil, fun root above => ?_⟩
        rw [List.foldl_append, hsame, List.append_nil, List.append_nil, List.replicate_succ',
          List.foldl_append]
      · rw [List.mem_append, not_or, List.mem_singleton] at hdown
        refine ⟨ups, down, hdown.1, fun root above => ?_⟩
        rw [List.foldl_append, hsame, ← List.append_assoc, List.foldl_append]
        simp only [List.foldl_cons, List.foldl_nil]
        rw [descend_of_ne (Ne.symm hdown.2), descend_up_cons (Ne.symm hdown.2)]
    · refine ⟨ups, down ++ [name], ?_, fun root above => ?_⟩
      · rw [List.mem_append, not_or, List.mem_singleton]
        exact ⟨hdown, Ne.symm hname⟩
      · rw [List.foldl_append, hsame, ← List.foldl_append, List.append_assoc]

/-! ## Resolved paths -/

/-- How far a relative path leads up from where it starts. -/
def ups (p : Path) : Nat :=
  p.resolved.names.count ".."

/-- The names that a path goes down, behind its way up. -/
def down (p : Path) : List String :=
  p.resolved.names.filter (· ≠ "..")

theorem notMem_down (p : Path) : ".." ∉ p.down := by
  simp [down]

theorem filter_replicate_append {ups : Nat} {down : List String} (h : ".." ∉ down) :
    (List.replicate ups ".." ++ down).filter (· ≠ "..") = down := by
  have hdown : down.filter (· ≠ "..") = down :=
    List.filter_eq_self.2 fun name hname => decide_eq_true fun hdots => h (hdots ▸ hname)
  rw [List.filter_append, hdown, List.filter_replicate_of_neg (by simp), List.nil_append]

theorem count_replicate_append {ups : Nat} {down : List String} (h : ".." ∉ down) :
    (List.replicate ups ".." ++ down).count ".." = ups := by
  rw [List.count_append, List.count_replicate_self, List.count_eq_zero_of_not_mem h, Nat.add_zero]

/-- The names of a path amount to double dots and the names behind them; below a root the double dots
are lost. -/
theorem exists_ups (p : Path) : ∃ n, p.ups = (if p.root = .relative then n else 0) ∧
    p.resolved.names = List.replicate p.ups ".." ++ p.down ∧
    ∀ root above, p.names.foldl (descend root) above =
      (List.replicate n ".." ++ p.down).foldl (descend root) above := by
  obtain ⟨n, down, hdown, hsame⟩ := exists_foldl_descend p.names
  have hup := @foldl_descend_replicate p.root [] List.not_mem_nil 0 (fun _ => rfl) n
  simp only [List.nil_append, List.replicate_zero, List.drop_nil, List.length_nil, Nat.zero_add,
    Nat.sub_zero] at hup
  have hresolved : p.resolved.names =
      List.replicate (if p.root = .relative then n else 0) ".." ++ down := by
    show (p.names.foldl (descend p.root) []).reverse = _
    rw [hsame, List.foldl_append, foldl_descend_of_notMem hdown, hup]
    simp
  have hups : p.ups = if p.root = .relative then n else 0 := by
    rw [ups, hresolved, count_replicate_append hdown]
  have hdown' : p.down = down := by rw [Path.down, hresolved, filter_replicate_append hdown]
  exact ⟨n, hups, by rw [hups, hdown', hresolved], by rwa [hdown']⟩

/-- A relative path can be taken from any names. -/
theorem foldl_descend_of_relative {p : Path} (h : p.root = .relative) (root : Root)
    (above : List String) : p.names.foldl (descend root) above =
      (List.replicate p.ups ".." ++ p.down).foldl (descend root) above := by
  obtain ⟨n, hups, -, hsame⟩ := p.exists_ups
  rw [if_pos h] at hups
  rw [hsame, hups]

/-- A resolved path leads up and then down. -/
theorem resolved_names (p : Path) : p.resolved.names = List.replicate p.ups ".." ++ p.down := by
  obtain ⟨_, -, hnames, -⟩ := p.exists_ups
  exact hnames

/-- Nothing is above a root. -/
theorem ups_eq_zero {p : Path} (h : p.root ≠ .relative) : p.ups = 0 := by
  obtain ⟨_, hups, -, -⟩ := p.exists_ups
  rw [hups, if_neg h]

/-! ## From a directory -/

/-- Whether a path that is joined to a directory leads into it. Without a root it must go down again
by the names of the directory that it takes back, and it must not lead up further than they
reach; there is nothing above a root, so from there it can go down again whatever it takes back. -/
def StaysIn (p directory : Path) : Prop :=
  if p.root = .relative then
    (directory.root = .relative → p.ups ≤ directory.down.length) ∧
      directory.down.drop (directory.down.length - p.ups) <+: p.down
  else p.IsInside directory

/-- A relative path, joined to a directory, takes back names of the directory and goes down. -/
theorem resolved_join {p : Path} (h : p.root = .relative) (directory : Path) :
    (directory.join p).resolved.names =
      List.replicate (directory.ups +
          if directory.root = .relative then p.ups - directory.down.length else 0) ".." ++
        (directory.down.take (directory.down.length - p.ups) ++ p.down) := by
  have hstack : directory.names.foldl (descend directory.root) [] =
      directory.down.reverse ++ List.replicate directory.ups ".." := by
    have hreverse := congrArg List.reverse directory.resolved_names
    rw [resolved, List.reverse_reverse, List.reverse_append, List.reverse_replicate] at hreverse
    exact hreverse
  have hnotMem : ".." ∉ directory.down.reverse := by
    rw [List.mem_reverse]
    exact directory.notMem_down
  unfold join
  rw [if_pos h]
  show ((directory.names ++ p.names).foldl (descend directory.root) []).reverse = _
  rw [List.foldl_append, foldl_descend_of_relative h, hstack, List.foldl_append,
    foldl_descend_replicate hnotMem ups_eq_zero, foldl_descend_of_notMem p.notMem_down]
  simp [List.drop_reverse]

/-- Where a path leads from a directory, it leads into it just if it stays in it. -/
theorem isInside_join_iff (p directory : Path) :
    (directory.join p).IsInside directory ↔ p.StaysIn directory := by
  unfold StaysIn
  split
  · rename_i hroot
    have hsame : (directory.join p).resolved.root = directory.resolved.root := by
      unfold join
      rw [if_pos hroot]
      rfl
    unfold IsInside
    rw [resolved_join hroot, directory.resolved_names]
    constructor
    · rintro ⟨-, below, hbelow, hdots⟩
      -- Double dots that lead up further are not in the directory, and so they are none.
      have hcount := congrArg (List.count "..") hbelow
      simp only [List.count_append, List.count_replicate_self,
        List.count_eq_zero_of_not_mem directory.notMem_down,
        List.count_eq_zero_of_not_mem p.notMem_down, List.count_eq_zero_of_not_mem hdots,
        List.count_eq_zero_of_not_mem fun h => directory.notMem_down (List.mem_of_mem_take h)]
        at hcount
      have hlost : (if directory.root = .relative then p.ups - directory.down.length else 0) = 0 := by
        omega
      refine ⟨fun hrelative => ?_, below, ?_⟩
      · rw [if_pos hrelative] at hlost
        omega
      · rw [hlost, Nat.add_zero, List.append_assoc, List.append_cancel_left_eq] at hbelow
        conv at hbelow => rhs; rw [← List.take_append_drop (directory.down.length - p.ups)
          directory.down, List.append_assoc]
        exact (List.append_cancel_left hbelow).symm
    · rintro ⟨hups, below, hbelow⟩
      have hlost : (if directory.root = .relative then p.ups - directory.down.length else 0) = 0 := by
        split
        · rename_i hrelative
          have := hups hrelative
          omega
        · rfl
      refine ⟨hsame, below, ?_, fun h => p.notMem_down ?_⟩
      · rw [hlost, Nat.add_zero, ← hbelow, ← List.append_assoc (List.take _ _),
          List.take_append_drop, List.append_assoc]
      · rw [← hbelow]
        exact List.mem_append_right _ h
  · rename_i hroot
    unfold join
    rw [if_neg hroot]

/-- A path stays in every directory just if it has no root and does not lead up. -/
theorem staysIn_all_iff (p : Path) :
    (∀ directory, p.StaysIn directory) ↔ p.root = .relative ∧ p.ups = 0 := by
  constructor
  · intro h
    by_cases hroot : p.root = .relative
    · have hhere := h ⟨.relative, []⟩
      rw [StaysIn, if_pos hroot] at hhere
      exact ⟨hroot, Nat.le_zero.1 (hhere.1 rfl)⟩
    · have hhere := h ⟨.relative, []⟩
      rw [StaysIn, if_neg hroot] at hhere
      exact (hroot hhere.1).elim
  · rintro ⟨hroot, hups⟩ directory
    rw [StaysIn, if_pos hroot, hups]
    refine ⟨fun _ => Nat.zero_le _, ?_⟩
    rw [Nat.sub_zero, List.drop_length]
    exact List.nil_prefix

end Path

end MailMerge.Files
