/-
How far a decimal reaches. What is read as a decimal is the same decimal in front of any text that
cannot go on with it, so what stands behind it matters by its first character only.
-/
import MailMerge.Number.Spelling
import MailMerge.Text.CharacterClass

namespace MailMerge.Number

open MailMerge.Text

/-- A text that cannot go on with the digits in front of it, nor with their fraction. -/
def EndsMantissa (cs : List Char) : Prop :=
  ∀ c ∈ cs.head?, digitValue? c = none ∧ c ≠ '.'

/-- A text that cannot go on with the decimal in front of it. -/
def EndsDecimal (cs : List Char) : Prop :=
  ∀ c ∈ cs.head?, (digitValue? c = none ∧ c ≠ '.') ∧ c ≠ 'e' ∧ c ≠ 'E'

theorem EndsDecimal.endsMantissa {cs : List Char} (h : EndsDecimal cs) : EndsMantissa cs :=
  fun c hc => (h c hc).1

theorem EndsMantissa.spanDigits {cs : List Char} (h : EndsMantissa cs) :
    spanDigits cs = ([], cs) := by
  cases cs with
  | nil => rfl
  | cons c cs => simp [Text.spanDigits, (h c rfl).1]

theorem EndsMantissa.spanFraction {cs : List Char} (h : EndsMantissa cs) :
    spanFraction cs = ([], cs) := by
  cases cs with
  | nil => rfl
  | cons c cs =>
    rw [Number.spanFraction]
    rintro rest ⟨⟩
    exact (h '.' rfl).2 rfl

theorem EndsDecimal.spanExponent {cs : List Char} (h : EndsDecimal cs) :
    spanExponent cs = (0, cs) := by
  cases cs with
  | nil => rfl
  | cons c cs => simp [Number.spanExponent, (h c rfl).2]

/-! ## Parts of a decimal -/

/-- Digits end in front of everything that is no digit. -/
theorem spanDigits_extent (cs : List Char) :
    ∃ w, cs = w ++ (spanDigits cs).2 ∧ ((spanDigits cs).1 = [] ↔ w = []) ∧
      ∀ more, spanDigits more = ([], more) → spanDigits (w ++ more) = ((spanDigits cs).1, more) := by
  induction cs with
  | nil => exact ⟨[], rfl, by simp [spanDigits], fun more h => h⟩
  | cons c cs ih =>
    obtain ⟨w, hcs, -, hmore⟩ := ih
    cases hc : digitValue? c with
    | none => exact ⟨[], by simp [spanDigits, hc], by simp [spanDigits, hc],
        fun more h => by simpa [spanDigits, hc] using h⟩
    | some d =>
      refine ⟨c :: w, ?_, by simp [spanDigits, hc], ?_⟩
      · simpa [spanDigits, hc] using hcs
      · intro more h
        simp [spanDigits, hc, hmore more h]

theorem spanFraction_extent (cs : List Char) :
    ∃ w, cs = w ++ (spanFraction cs).2 ∧ (w = [] ∧ (spanFraction cs).1 = [] ∨ w.head? = some '.') ∧
      ∀ more, EndsMantissa more → spanFraction (w ++ more) = ((spanFraction cs).1, more) := by
  by_cases hpoint : ∃ rest, cs = '.' :: rest
  · obtain ⟨rest, rfl⟩ := hpoint
    obtain ⟨w, hrest, -, hmore⟩ := spanDigits_extent rest
    refine ⟨'.' :: w, congrArg ('.' :: ·) hrest, .inr rfl, ?_⟩
    intro more h
    exact hmore more h.spanDigits
  · have hnone : spanFraction cs = ([], cs) := by
      rw [spanFraction]
      rintro rest rfl
      exact hpoint ⟨rest, rfl⟩
    rw [hnone]
    exact ⟨[], rfl, .inl ⟨rfl, rfl⟩, fun more h => h.spanFraction⟩

theorem spanMantissa_extent {cs rest : List Char} {whole fraction : List Nat}
    (h : spanMantissa cs = some (whole, fraction, rest)) :
    ∃ w, cs = w ++ rest ∧ w ≠ [] ∧
      ∀ more, EndsMantissa more → spanMantissa (w ++ more) = some (whole, fraction, more) := by
  obtain ⟨w, hcs, hw, hwhole⟩ := spanDigits_extent cs
  obtain ⟨w', hcs', hw', hfraction⟩ := spanFraction_extent (spanDigits cs).2
  simp only [spanMantissa, Option.ite_none_left_eq_some, Option.some.injEq, Prod.mk.injEq] at h
  obtain ⟨hne, rfl, rfl, rfl⟩ := h
  refine ⟨w ++ w', ?_, ?_, ?_⟩
  · rw [List.append_assoc, ← hcs', ← hcs]
  · rintro hnil
    obtain ⟨rfl, rfl⟩ := List.append_eq_nil_iff.1 hnil
    rcases hw' with ⟨-, hnone⟩ | hpoint
    · exact hne ⟨hw.2 rfl, hnone⟩
    · cases hpoint
  · intro more hmore
    -- The digits in front of the point end there, whether there is a point or not.
    have hstop : spanDigits (w' ++ more) = ([], w' ++ more) := by
      rcases hw' with ⟨rfl, -⟩ | hpoint
      · exact hmore.spanDigits
      · obtain ⟨tail, rfl⟩ := List.head?_eq_some_iff.1 hpoint
        rfl
    rw [List.append_assoc]
    simp only [spanMantissa, hwhole _ hstop, hfraction more hmore]
    rw [if_neg hne]

/-- The sign of a text is also that of the text with something else behind its first characters. -/
theorem spanSign_extent {cs w rest : List Char} (h : (spanSign cs).2 = w ++ rest) (hw : w ≠ []) :
    ∃ s, cs = s ++ w ++ rest ∧ ∀ more, spanSign (s ++ w ++ more) = ((spanSign cs).1, w ++ more) := by
  unfold spanSign at h
  split at h
  · subst h
    exact ⟨['+'], rfl, fun more => rfl⟩
  · subst h
    exact ⟨['-'], rfl, fun more => rfl⟩
  · rename_i hplus hminus
    subst h
    obtain ⟨c, w, rfl⟩ := List.exists_cons_of_ne_nil hw
    have habsent : ∀ more, spanSign (c :: w ++ more) = (.absent, c :: w ++ more) := by
      intro more
      rw [List.cons_append, spanSign]
      · rintro _ ⟨⟩
        exact hplus _ rfl
      · rintro _ ⟨⟩
        exact hminus _ rfl
    exact ⟨[], rfl, fun more => by rw [habsent rest]; exact habsent more⟩

theorem spanExponent_extent (cs : List Char) :
    ∃ w, cs = w ++ (spanExponent cs).2 ∧ (∀ c ∈ w.head?, c = 'e' ∨ c = 'E') ∧
      ∀ more, EndsDecimal more → spanExponent (w ++ more) = ((spanExponent cs).1, more) := by
  by_cases hnone : spanExponent cs = (0, cs)
  · rw [hnone]
    exact ⟨[], rfl, by simp, fun more h => h.spanExponent⟩
  · -- There is an exponent, so there are a letter and digits.
    cases cs with
    | nil => exact (hnone rfl).elim
    | cons c rest =>
      have hc : c = 'e' ∨ c = 'E' :=
        Decidable.byContradiction fun hc => hnone (by simp [spanExponent, hc])
      obtain ⟨w, hrest, hw, hmore⟩ := spanDigits_extent (spanSign rest).2
      obtain ⟨digits, rest', hdigits⟩ : ∃ digits rest', spanDigits (spanSign rest).2 = (digits, rest') :=
        ⟨_, _, rfl⟩
      rw [hdigits] at hrest hw hmore
      cases digits with
      | nil => exact (hnone (by simp [spanExponent, hc, hdigits])).elim
      | cons d digits =>
        have hne : w ≠ [] := fun h => by simpa using hw.2 h
        obtain ⟨s, hs, hsign⟩ := spanSign_extent hrest hne
        refine ⟨c :: s ++ w, ?_, by simpa using hc, ?_⟩
        · have hrest' : (spanExponent (c :: rest)).2 = rest' := by simp [spanExponent, hc, hdigits]
          rw [hrest']
          exact congrArg (c :: ·) hs
        · intro more hends
          have hdigits' := hmore more hends.endsMantissa.spanDigits
          have hsign := hsign more
          rw [List.append_assoc] at hsign
          simp [spanExponent, hc, hdigits, hsign, hdigits']

/-! ## Decimals -/

/-- The decimal at the start of a text is also read in front of anything else that cannot go on
with it. -/
theorem spanDecimal_extent {cs rest : List Char} {d : DecimalSpelling}
    (h : spanDecimal cs = some (d, rest)) :
    ∃ w, cs = w ++ rest ∧ ∀ more, EndsDecimal more → spanDecimal (w ++ more) = some (d, more) := by
  obtain ⟨⟨whole, fraction, tail⟩, hmantissa, hd⟩ := Option.map_eq_some_iff.1 h
  obtain ⟨w, hcs, hw, hmore⟩ := spanMantissa_extent hmantissa
  obtain ⟨e, htail, he, hexponent⟩ := spanExponent_extent tail
  obtain ⟨s, hs, hsign⟩ := spanSign_extent hcs hw
  simp only [Prod.mk.injEq] at hd
  obtain ⟨rfl, rfl⟩ := hd
  refine ⟨s ++ w ++ e, ?_, ?_⟩
  · rw [List.append_assoc, ← htail, hs]
  · intro more h
    -- Neither the letter of an exponent nor what ends a decimal goes on with the mantissa.
    have hstop : EndsMantissa (e ++ more) := by
      cases e with
      | nil => exact h.endsMantissa
      | cons c e =>
        rintro _ ⟨⟩
        rcases he c rfl with rfl | rfl <;> exact ⟨by decide, by decide⟩
    rw [List.append_assoc, spanDecimal, hsign, hmore _ hstop]
    simp only [Option.map_some, hexponent more h]

/-- White space ends a decimal. -/
theorem digitValue?_of_isBlank {c : Char} (h : isBlank c = true) : digitValue? c = none := by
  obtain ⟨r, hr, hlow, hhigh⟩ := mem_of_inRanges h
  unfold digitValue?
  rw [Option.map_eq_none_iff, List.find?_eq_none]
  intro z hz
  have hzeros : ∀ r ∈ blankRanges, ∀ z ∈ digitZeros, r.2 < z ∨ z + 10 ≤ r.1 := by decide
  have := hzeros r hr z hz
  simp only [Bool.and_eq_true, decide_eq_true_eq, not_and]
  omega

/-- White space and at signs end a decimal. -/
theorem endsDecimal_of_head? {cs : List Char} (h : ∀ c ∈ cs.head?, isBlank c = true ∨ c = '@') :
    EndsDecimal cs := by
  intro c hc
  rcases h c hc with hblank | rfl
  · refine ⟨⟨digitValue?_of_isBlank hblank, ?_⟩, ?_, ?_⟩
    all_goals
      rintro rfl
      cases hblank
  · exact ⟨⟨by decide, by decide⟩, by decide, by decide⟩

end MailMerge.Number
