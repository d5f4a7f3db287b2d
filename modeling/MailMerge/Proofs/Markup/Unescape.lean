/-
Escaping and its undoing. An escaped text is one run of units, whatever it contains, as long as
every character that would end the run is escaped; and unescaping the run gives the text back.
-/
import MailMerge.Markup.Print

namespace MailMerge.Markup

open MailMerge.Text

variable {special : Char → Bool}

@[simp] theorem escape_nil : escape special [] = [] := rfl

theorem escape_cons (c : Char) (cs : List Char) :
    escape special (c :: cs) = (if special c then ['\\', c] else [c]) ++ escape special cs := rfl

theorem escape_eq_nil_iff {cs : List Char} : escape special cs = [] ↔ cs = [] := by
  cases cs with
  | nil => simp
  | cons c cs =>
    rw [escape_cons]
    split <;> simp

/-- An escaped text starts with a backslash or with a character that is not special. -/
theorem head?_escape {cs : List Char} {c : Char} (h : (escape special cs).head? = some c) :
    c = '\\' ∨ special c = false ∧ c ∈ cs := by
  cases cs with
  | nil => cases h
  | cons d cs =>
    rw [escape_cons] at h
    split at h
    · cases h
      exact .inl rfl
    · rename_i hd
      cases h
      exact .inr ⟨by simpa using hd, List.mem_cons_self⟩

/-- An escaped text without a backslash has nothing escaped. -/
theorem escape_eq_self {cs : List Char} (h : '\\' ∉ escape special cs) :
    escape special cs = cs := by
  induction cs with
  | nil => rfl
  | cons c cs ih =>
    rw [escape_cons] at h ⊢
    split at h
    · simp at h
    · rw [if_neg ‹_›, ih fun hmem => h (List.mem_append_right _ hmem)]
      rfl

theorem unescape_cons {c : Char} (hc : c ≠ '\\') (cs : List Char) :
    unescape (c :: cs) = c :: unescape cs := by
  rw [unescape]
  rintro _ _ rfl
  exact (hc rfl).elim

theorem unescape_escape (h : special '\\' = true) (cs : List Char) :
    unescape (escape special cs) = cs := by
  induction cs with
  | nil => rfl
  | cons c cs ih =>
    rw [escape_cons]
    split
    · show c :: unescape (escape special cs) = _
      rw [ih]
    · -- What is not escaped is no backslash, so it starts no escape.
      rename_i hc
      have hne : c ≠ '\\' := by
        rintro rfl
        exact hc h
      rw [List.singleton_append, unescape_cons hne, ih]

/-! ## Runs of units -/

namespace Units

/-- A character that is never plain ends a run. -/
theorem span_of_not_plain {u : Units} {c : Char} {rest : List Char} (hc : c ≠ '\\')
    (h : u.plain c rest.head? = false) : u.span (c :: rest) = ([], c :: rest) := by
  rw [span]
  · simp [h]
  · rintro _ _ rfl
    exact (hc rfl).elim

/-- A run of units covers an escaped text and ends with it. -/
theorem span_escape {u : Units} {cs rest : List Char}
    (hspecial : ∀ c ∈ cs, special c = true → u.escapable c = true)
    (hplain : ∀ c ∈ cs, special c = false → c ≠ '\\' ∧ ∀ next, u.plain c next = true)
    (hrest : u.span rest = ([], rest)) :
    u.span (escape special cs ++ rest) = (escape special cs, rest) := by
  induction cs with
  | nil => exact hrest
  | cons c cs ih =>
    have ih := ih (fun c hc => hspecial c (List.mem_cons_of_mem _ hc))
      (fun c hc => hplain c (List.mem_cons_of_mem _ hc))
    rw [escape_cons]
    by_cases hc : special c = true
    · have hescapable := hspecial c List.mem_cons_self hc
      simp [hc, span, hescapable, ih]
    · obtain ⟨hne, hplain⟩ := hplain c List.mem_cons_self (by simpa using hc)
      rw [if_neg hc, List.singleton_append, List.cons_append, span]
      · simp [hne, hplain, ih]
      · rintro _ _ rfl
        exact (hne rfl).elim

/-- What stands between quotes is read up to the closing one. -/
theorem spanQuoted_enclose {u : Units} {quote : Char} (cs rest : List Char) (hquote : quote ≠ '\\')
    (hescapable : u.escapable '\\' = true ∧ u.escapable quote = true)
    (hplain : ∀ c next, u.plain c next = true ↔ c ≠ quote) :
    u.spanQuoted quote (enclose quote cs ++ rest) = some (escape (escapedIn quote) cs, rest) := by
  have hstop : u.span (quote :: rest) = ([], quote :: rest) :=
    span_of_not_plain hquote (by
      have := hplain quote rest.head?
      simpa using this)
  have hspan : u.span (escape (escapedIn quote) cs ++ quote :: rest) =
      (escape (escapedIn quote) cs, quote :: rest) := by
    refine span_escape ?_ ?_ hstop
    · intro c _ hc
      rcases (by simpa [escapedIn] using hc : c = '\\' ∨ c = quote) with rfl | rfl
      · exact hescapable.1
      · exact hescapable.2
    · intro c _ hc
      obtain ⟨hslash, hne⟩ : c ≠ '\\' ∧ c ≠ quote := by simpa [escapedIn] using hc
      exact ⟨hslash, fun next => (hplain c next).2 hne⟩
  simp [enclose, spanQuoted, hspan]

end Units

end MailMerge.Markup
