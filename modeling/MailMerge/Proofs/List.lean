/-
Lists without repeats, and parts of lists. Of equal members only the first is kept; what is left so
follows a list when it grows at its end, when it is filtered, and when its members are mapped apart.
-/
import Mathlib.Data.List.Induction

namespace MailMerge

/-! ## Repeats left out -/

section

variable {α : Type} [BEq α] [LawfulBEq α]

theorem eraseDups_concat (xs : List α) (x : α) :
    (xs ++ [x]).eraseDups = if x ∈ xs then xs.eraseDups else xs.eraseDups ++ [x] := by
  rw [List.eraseDups_append]
  by_cases h : x ∈ xs <;> simp [List.removeAll, List.eraseDups_cons, h]

theorem eraseDups_eraseDups (xs : List α) : xs.eraseDups.eraseDups = xs.eraseDups := by
  induction xs using List.reverseRecOn with
  | nil => rfl
  | append_singleton xs x ih =>
    rw [eraseDups_concat]
    split
    · exact ih
    · rename_i hx
      rw [eraseDups_concat, if_neg (by rwa [List.mem_eraseDups]), ih]

theorem eraseDups_append_of_subset {xs ys : List α} (h : ys ⊆ xs) :
    (xs ++ ys).eraseDups = xs.eraseDups := by
  have hnone : ys.removeAll xs = [] := by
    rw [List.removeAll, List.filter_eq_nil_iff]
    intro y hy
    simp [h hy]
  rw [List.eraseDups_append, hnone, List.eraseDups_nil, List.append_nil]

/-- Repeats are left out of a part of a list as they are left out of the list. -/
theorem eraseDups_filter (p : α → Bool) (xs : List α) :
    (xs.filter p).eraseDups = xs.eraseDups.filter p := by
  match xs with
  | [] => rfl
  | x :: xs =>
    have ih := eraseDups_filter p (xs.filter fun y => !y == x)
    rw [List.eraseDups_cons, List.filter_cons]
    split
    · rename_i hx
      rw [List.eraseDups_cons, List.filter_filter, List.filter_cons_of_pos hx, ← ih,
        List.filter_filter]
      congr 3
      funext y
      exact Bool.and_comm _ _
    · rename_i hx
      rw [List.filter_cons_of_neg hx, ← ih, List.filter_filter]
      congr 2
      funext y
      by_cases hy : y = x
      · subst hy
        simp [hx]
      · simp [hy]
termination_by xs.length
decreasing_by exact Nat.lt_succ_of_le (List.length_filter_le ..)

/-- Repeats are left out alike before and after a map that keeps members apart. -/
theorem eraseDups_map {β : Type} [BEq β] [LawfulBEq β] {f : α → β} {xs : List α}
    (h : ∀ a ∈ xs, ∀ b ∈ xs, f a = f b → a = b) :
    (xs.map f).eraseDups = xs.eraseDups.map f := by
  match xs with
  | [] => rfl
  | a :: xs =>
    have hfilter : (xs.map f).filter (fun b => !b == f a) =
        (xs.filter fun b => !b == a).map f := by
      rw [List.filter_map]
      congr 1
      refine List.filter_congr fun b hb => ?_
      have hab : (f b == f a) = (b == a) := by
        rw [Bool.eq_iff_iff, beq_iff_eq, beq_iff_eq]
        exact ⟨h b (List.mem_cons_of_mem a hb) a List.mem_cons_self, congrArg f⟩
      simp [hab]
    rw [List.map_cons, List.eraseDups_cons, hfilter, eraseDups_map, List.eraseDups_cons,
      List.map_cons]
    intro b hb d hd
    exact h b (List.mem_cons_of_mem a (List.mem_filter.1 hb).1) d
      (List.mem_cons_of_mem a (List.mem_filter.1 hd).1)
termination_by xs.length
decreasing_by exact Nat.lt_succ_of_le (List.length_filter_le _ _)

end

/-! ## Parts of a list -/

section

variable {α : Type}

theorem extract_append_extract (xs : List α) {a b c : Nat} (hab : a ≤ b) (hbc : b ≤ c) :
    xs.extract a b ++ xs.extract b c = xs.extract a c := by
  have hlength : c - a = (b - a) + (c - b) := by omega
  rw [List.extract_eq_take_drop, List.extract_eq_take_drop, List.extract_eq_take_drop, hlength,
    List.take_add, List.drop_drop, Nat.add_sub_cancel' hab]

theorem extract_succ {xs : List α} {n : Nat} (h : n < xs.length) :
    xs.extract n (n + 1) = [xs[n]] := by
  rw [List.extract_eq_take_drop, Nat.add_sub_cancel_left, List.drop_eq_getElem_cons h]
  rfl

theorem map_modify {β : Type} {f : α → β} {g : α → α} {h : β → β} (hfg : ∀ a, f (g a) = h (f a))
    (i : Nat) (l : List α) : (l.modify i g).map f = (l.map f).modify i h := by
  apply List.ext_getElem?
  intro j
  rw [List.getElem?_map, List.getElem?_modify, List.getElem?_modify, List.getElem?_map]
  cases l[j]? with
  | none => rfl
  | some a => by_cases hij : i = j <;> simp [hij, hfg]

end

end MailMerge
