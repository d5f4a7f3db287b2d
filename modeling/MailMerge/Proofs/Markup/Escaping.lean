/-
Escapes and where a text can be cut. Escapes are told from the left, so a run of backslashes pairs
up by position: a text can be escaped at any places as long as all backslashes are among them, and
it can be cut, and both parts resolved alone, wherever the run in front of the cut is even.
-/
import Mathlib.Algebra.Ring.Parity
import Mathlib.Data.List.DropRight
import Mathlib.Data.List.Induction
import MailMerge.Proofs.Markup.Shape

namespace MailMerge.Markup

variable {cs front : List Char}

/-! ## Escaping at some places -/

/-- A text with a backslash in front of the characters at the chosen places. -/
def escapeAt (chosen : Nat → Bool) (cs : List Char) : List Char :=
  cs.zipIdx.flatMap fun p => if chosen p.2 then ['\\', p.1] else [p.1]

/-- Resolving the escapes of a text from the place `n` on, if every backslash in it is escaped. -/
theorem unescape_escapeFrom {chosen : Nat → Bool} {n : Nat}
    (h : ∀ i, cs[i]? = some '\\' → chosen (n + i) = true) :
    unescape ((cs.zipIdx n).flatMap fun p => if chosen p.2 then ['\\', p.1] else [p.1]) = cs := by
  induction cs generalizing n with
  | nil => rfl
  | cons c cs ih =>
    have ih := @ih (n + 1) fun i hi => by
      rw [Nat.add_right_comm]
      exact h (i + 1) hi
    rw [List.zipIdx_cons, List.flatMap_cons]
    by_cases hc : chosen n = true
    · rw [if_pos hc, List.cons_append, List.singleton_append, unescape, ih]
    · have hne : c ≠ '\\' := by
        rintro rfl
        exact hc (h 0 rfl)
      rw [if_neg hc, List.singleton_append, unescape_cons hne, ih]

/-! ## Backslashes that are left over -/

/-- A backslash is left over at the end of a text if there is one and none is left over in front
of it. -/
theorem endsUnescaped_concat (cs : List Char) (c : Char) :
    endsUnescaped '\\' (cs ++ [c]) = (decide (c = '\\') && !endsUnescaped '\\' cs) := by
  fun_induction endsUnescaped '\\' cs with
  | case1 => simp [endsUnescaped]
  | case2 d =>
    by_cases hd : d = '\\'
    · subst hd
      simp [endsUnescaped]
    · rw [List.singleton_append, endsUnescaped_cons hd (by simp)]
      simp [endsUnescaped, hd]
  | case3 d cs ih => exact ih
  | case4 d cs hne hpair ih =>
    obtain ⟨e, cs, rfl⟩ := List.exists_cons_of_ne_nil hne
    have hd : d ≠ '\\' := fun hd => hpair e cs hd rfl
    rw [List.cons_append, endsUnescaped_cons hd (by simp), ih]

/-- The backslashes at the end of a text pair up, but for the first of an odd number. -/
theorem endsUnescaped_iff_odd (cs : List Char) :
    endsUnescaped '\\' cs = true ↔ Odd (cs.rtakeWhile (· = '\\')).length := by
  induction cs using List.reverseRecOn with
  | nil => simp [endsUnescaped]
  | append_singleton cs c ih =>
    rw [endsUnescaped_concat]
    by_cases hc : c = '\\'
    · rw [List.rtakeWhile_concat_pos _ _ _ (by simpa using hc), List.length_append,
        List.length_singleton, Nat.odd_add_one, ← ih]
      simp [hc]
    · rw [List.rtakeWhile_concat_neg _ _ _ (by simpa using hc)]
      simp [hc]

/-! ## Cutting a text -/

/-- Where no backslash is left over the escapes are resolved on both sides alone. -/
theorem unescape_append_of_paired (h : endsUnescaped '\\' front = false) (back : List Char) :
    unescape (front ++ back) = unescape front ++ unescape back := by
  fun_induction endsUnescaped '\\' front with
  | case1 => rfl
  | case2 d =>
    have hd : d ≠ '\\' := by simpa using h
    rw [List.singleton_append, unescape_cons hd, unescape_cons hd]
    rfl
  | case3 d cs ih =>
    show d :: unescape (cs ++ back) = _
    rw [ih h]
    rfl
  | case4 d cs hne hpair ih =>
    obtain ⟨e, cs, rfl⟩ := List.exists_cons_of_ne_nil hne
    have hd : d ≠ '\\' := fun hd => hpair e cs hd rfl
    rw [List.cons_append, unescape_cons hd, unescape_cons hd, ih h, List.cons_append]

/-- A backslash that is left over takes the character behind the cut with it. -/
theorem unescape_append_ne_of_open (h : endsUnescaped '\\' front = true) :
    unescape (front ++ ['\\']) ≠ unescape front ++ unescape ['\\'] := by
  obtain ⟨before, c, rfl⟩ : ∃ before c, front = before ++ [c] := by
    rcases List.eq_nil_or_concat front with rfl | ⟨before, c, rfl⟩
    · cases h
    · exact ⟨before, c, List.concat_eq_append⟩
  rw [endsUnescaped_concat, Bool.and_eq_true, Bool.not_eq_true', decide_eq_true_eq] at h
  obtain ⟨rfl, hbefore⟩ := h
  rw [List.append_assoc, unescape_append_of_paired hbefore, unescape_append_of_paired hbefore]
  simp [unescape]

/-- Resolving escapes undoes every way of escaping that escapes all backslashes. A text can be cut,
and its parts resolved alone whatever stands behind the cut, just where no backslash is left over in
front of it; and one is left over where there is an odd number of them. -/
theorem escapes_resolved :
    (∀ (cs : List Char) (chosen : Nat → Bool), (∀ i, cs[i]? = some '\\' → chosen i = true) →
      unescape (escapeAt chosen cs) = cs) ∧
    ∀ front : List Char,
      (endsUnescaped '\\' front = false ↔
        ∀ back, unescape (front ++ back) = unescape front ++ unescape back) ∧
      (endsUnescaped '\\' front = true ↔ Odd (front.rtakeWhile (· = '\\')).length) := by
  refine ⟨fun cs chosen h => ?_, fun front => ⟨⟨unescape_append_of_paired, fun h => ?_⟩, ?_⟩⟩
  · exact unescape_escapeFrom (by simpa using h)
  · refine Bool.eq_false_iff.2 fun hopen => ?_
    exact unescape_append_ne_of_open hopen (h _)
  · exact endsUnescaped_iff_odd front

/-- Of three backslashes and a brace, the brace need not be escaped; and behind two backslashes a
text can be cut, although a backslash follows. -/
theorem escapes_resolved_backslashes :
    unescape (escapeAt (· ≠ 1) ['\\', '{', '\\', '\\']) = ['\\', '{', '\\', '\\'] ∧
      unescape (['\\', '\\'] ++ ['\\', '{']) = unescape ['\\', '\\'] ++ unescape ['\\', '{'] := by
  refine ⟨escapes_resolved.1 _ _ ?_, (escapes_resolved.2 _).1.1 (by decide) _⟩
  rintro (_ | _ | i) hi
  · rfl
  · cases hi
  · rfl

end MailMerge.Markup
