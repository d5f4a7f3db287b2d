/-
Where a brace can stand in front of an at sign. Inside of a bracket a brace is escaped and so is an
at sign, hence the two meet only in texts and quotes, and where a name that ends with an escaped brace
stands in front of the at sign of an index.
-/
import MailMerge.Proofs.Markup.Shape
import MailMerge.Proofs.Number.Overlong

namespace MailMerge.Markup

open MailMerge.Text MailMerge.Number

/-! ## Names -/

namespace Units

variable {u : Units} {c d : Char} {w : List Char}

/-- A run does not start with a character that must be escaped. -/
theorem Spells.head_ne (h : u.Spells w) (hc : c ≠ '\\') (hplain : ∀ next, u.plain c next = false) :
    w.head? ≠ some c := by
  cases w with
  | nil => nofun
  | cons d w =>
    rintro ⟨⟩
    rcases h.head with hescape | h
    · exact hc hescape
    · rw [hplain] at h
      cases h

/-- In a run a backslash stands in front of a character that must be escaped. -/
theorem not_infix_span (hu : u.Uniform) (hc : c ≠ '\\') (hplain : ∀ next, u.plain c next = false)
    (hd : d ≠ '\\') (cs : List Char) : ¬[d, c] <:+: (u.span cs).1 := by
  fun_induction Units.span u cs with
  | case1 | case3 | case5 => simp
  | case2 e rest _ more ih =>
    have hhead := (hu.spells_span rest).head_ne hc hplain
    rw [List.infix_cons_iff, List.infix_cons_iff]
    rintro (hfirst | hsecond | hrest)
    · exact hd (List.cons_prefix_cons.1 hfirst).1
    · obtain ⟨tail, htail⟩ := (List.cons_prefix_cons.1 hsecond).2
      exact hhead (by rw [← htail]; rfl)
    · exact ih hrest
  | case4 e rest _ _ more ih =>
    have hhead := (hu.spells_span rest).head_ne hc hplain
    rw [List.infix_cons_iff]
    rintro (hfirst | hrest)
    · obtain ⟨tail, htail⟩ := (List.cons_prefix_cons.1 hfirst).2
      exact hhead (by rw [← htail]; rfl)
    · exact ih hrest

end Units

namespace Bracket

variable {b : Bracket} {w cs : List Char} {x : Lexeme}

/-- No brace stands in front of an at sign in a bare name. -/
theorem not_infix_of_spells (h : b.units.Spells w) : ¬['{', '@'] <:+: w := by
  have hspan : ¬['{', '@'] <:+: (b.units.span w).1 := by
    cases b with
    | expansion =>
      exact Units.not_infix_span Units.uniform_expansionUnits (by decide) (fun _ => rfl) (by decide) w
    | tag => exact Units.not_infix_span Units.uniform_tagUnits (by decide) (fun _ => rfl) (by decide) w
  rwa [show b.units.span w = (w, []) from h] at hspan

/-- A bare name is cut where its run of units ends. -/
theorem span_of_scan {name : String} (h : b.mode.scan cs = .ok x) (hkind : x.kind = .segment name)
    (hbare : x.spelling.head? ≠ some '\x60') : b.units.span cs = (x.spelling, x.rest) := by
  have hclosing : Rule.closing b.close.2 b.close.1 cs ≠ some x := by
    intro hx
    obtain ⟨_, -, hclose, -⟩ := Rule.eq_of_closing hx
    rw [hkind] at hclose
    cases b <;> cases hclose
  have hblank : Rule.blank cs ≠ some x := by
    intro hx
    unfold Rule.blank at hx
    split at hx
    · cases hx
    · cases hx
      cases hkind
  have hquoted : Rule.quotedSegment cs ≠ some x := by
    intro hx
    unfold Rule.quotedSegment at hx
    split at hx
    · split at hx
      · cases hx
      · cases hx
        exact hbare rfl
    · cases hx
  have hfixed : ∀ kind spelling, (∀ name, kind ≠ .segment name) → Rule.fixed kind spelling cs ≠ some x := by
    intro kind spelling hne hx
    exact hne name ((Rule.eq_of_fixed hx).1.symm.trans hkind)
  have hrun : Rule.run b.units b.word cs = some x → b.units.span cs = (x.spelling, x.rest) := by
    intro hx
    unfold Rule.run at hx
    split at hx
    · cases hx
    · cases hx
      rfl
  unfold Mode.scan at h
  split at h
  · rename_i y hy
    cases h
    obtain ⟨rule, hrule, hx⟩ := List.exists_of_findSome?_eq_some hy
    cases b with
    | expansion =>
      simp only [mode, Mode.rules, List.mem_cons, List.not_mem_nil, or_false] at hrule
      rcases hrule with rfl | rfl | rfl | rfl | rfl | rfl
      · exact (hclosing hx).elim
      · exact (hblank hx).elim
      · exact (hquoted hx).elim
      · exact hrun hx
      · exact (hfixed _ _ (by simp) hx).elim
      · exact (hfixed _ _ (by simp) hx).elim
    | tag =>
      simp only [mode, Mode.rules, List.mem_cons, List.not_mem_nil, or_false] at hrule
      rcases hrule with rfl | rfl | rfl | rfl | rfl | rfl | rfl
      · exact (hclosing hx).elim
      · exact (hblank hx).elim
      · exact (hquoted hx).elim
      · exact hrun hx
      · exact (hfixed _ _ (by simp) hx).elim
      · exact (hfixed _ _ (by simp) hx).elim
      · obtain ⟨op, -, hop⟩ := List.exists_of_findSome?_eq_some hx
        exact (hfixed _ _ (by simp) hop).elim
  · rw [if_neg b.mode_ne_literal] at h
    cases h

end Bracket

/-! ## Numbers -/

section

variable {c : Char} (hdigit : isDecimalDigit c = false) (hc : c ∉ ['+', '-', '.', 'e', 'E'])

include hdigit in
theorem mem_spanDigits {cs : List Char} (h : c ∈ cs) : c ∈ (spanDigits cs).2 := by
  obtain ⟨digits, hdigits, hcs, -⟩ := spanDigits_split cs
  rw [hcs] at h
  refine (List.mem_append.1 h).resolve_left fun hmem => ?_
  rw [hdigits c hmem] at hdigit
  cases hdigit

include hc in
theorem mem_spanSign {cs : List Char} (h : c ∈ cs) : c ∈ (spanSign cs).2 := by
  obtain ⟨sign, hsign, hcs⟩ := spanSign_split cs
  rw [hcs] at h
  refine (List.mem_append.1 h).resolve_left fun hmem => hc ?_
  simp only [List.mem_cons, List.not_mem_nil, or_false] at hsign
  rcases hsign with rfl | rfl | rfl
  · cases hmem
  · simp [List.mem_singleton.1 hmem]
  · simp [List.mem_singleton.1 hmem]

include hdigit hc

theorem mem_spanFraction {cs : List Char} (h : c ∈ cs) : c ∈ (spanFraction cs).2 := by
  unfold spanFraction
  split
  · rcases List.mem_cons.1 h with rfl | h
    · simp at hc
    · exact mem_spanDigits hdigit h
  · exact h

theorem mem_spanExponent {cs : List Char} (h : c ∈ cs) : c ∈ (spanExponent cs).2 := by
  unfold spanExponent
  split
  · rename_i e rest
    split
    · rename_i he
      have hrest : c ∈ rest := by
        rcases List.mem_cons.1 h with rfl | h
        · rcases he with rfl | rfl <;> simp at hc
        · exact h
      split
      · exact h
      · rename_i hspan
        have := mem_spanDigits hdigit (mem_spanSign hc hrest)
        rwa [hspan] at this
    · exact h
  · exact h

/-- Nothing but digits, signs, a point and the letter of an exponent stands in a number. -/
theorem notMem_of_spanDecimal {w : List Char} {d : DecimalSpelling} (h : spanDecimal w = some (d, [])) :
    c ∉ w := by
  intro hmem
  obtain ⟨⟨whole, fraction, rest⟩, hmantissa, hd⟩ := Option.map_eq_some_iff.1 h
  simp only [spanMantissa, Option.ite_none_left_eq_some, Option.some.injEq, Prod.mk.injEq] at hmantissa
  obtain ⟨-, -, -, rfl⟩ := hmantissa
  have hend := mem_spanExponent hdigit hc (mem_spanFraction hdigit hc
    (mem_spanDigits hdigit (mem_spanSign hc hmem)))
  rw [(Prod.mk.inj hd).2] at hend
  cases hend

end

end MailMerge.Markup
