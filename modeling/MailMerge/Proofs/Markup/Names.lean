/-
Written names, lookups and paths. Each name is recognised where it is written, bare or in backticks:
what ends it in the text also ends it for the scanner, and a bare name is never mistaken for a
keyword.
-/
import MailMerge.Markup.WellFormed
import MailMerge.Markup.Flatten
import MailMerge.Proofs.Markup.Scanning
import MailMerge.Proofs.Markup.Unescape

namespace MailMerge.Markup

open MailMerge.Text

/-! ## Brackets -/

/-- A text that starts neither with white space nor as a closing bracket does. -/
def StartsWord (cs : List Char) : Prop :=
  ∃ c rest, cs = c :: rest ∧ isBlank c = false ∧ c ≠ '@' ∧ c ≠ '}'

theorem StartsWord.append {cs : List Char} (h : StartsWord cs) (rest : List Char) :
    StartsWord (cs ++ rest) := by
  obtain ⟨c, cs, rfl, hc⟩ := h
  exact ⟨c, cs ++ rest, rfl, hc⟩

namespace Bracket

/-- The mode of the scanner in a bracket. -/
def mode : Bracket → Mode
  | expansion => .expansion
  | tag => .tag

/-- The units of bare names in a bracket. -/
def units : Bracket → Units
  | expansion => expansionUnits
  | tag => tagUnits

/-- The token of a bare word in a bracket. -/
def word : Bracket → List Char → TokenKind
  | expansion => Rule.segmentOf
  | tag => Rule.wordOf

/-- The characters that open a bracket, and their token. -/
def start : Bracket → List Char × TokenKind
  | expansion => (['{', '{'], .openExpansion)
  | tag => (['{', '@'], .openTag)

/-- The characters that close a bracket, and their token. -/
def close : Bracket → List Char × TokenKind
  | expansion => (['}', '}'], .closeExpansion)
  | tag => (['@', '}'], .closeTag)

/-- Behind a name stands a character that ends it. -/
theorem span_of_mem (b : Bracket) {c : Char} (h : c ∈ [' ', '.', '@']) (rest : List Char) :
    b.units.span (c :: rest) = ([], c :: rest) := by
  have hc : c ≠ '\\' ∧ ∀ next, b.units.plain c next = false := by
    simp only [List.mem_cons, List.not_mem_nil, or_false] at h
    rcases h with rfl | rfl | rfl <;> exact ⟨by decide, fun _ => by cases b <;> rfl⟩
  exact Units.span_of_not_plain hc.1 (hc.2 _)

theorem scans_dot (b : Bracket) (rest : List Char) :
    Scans b.mode ('.' :: rest) [.dot] b.mode rest := by
  have hblank : isBlank '.' = false := rfl
  have hspan := b.span_of_mem (c := '.') (by simp) rest
  cases b <;>
  · simp only [units] at hspan
    refine Scans.of_rules (x := ⟨.dot, ['.'], rest⟩) ?_
    simp [mode, Mode.rules, Mode.skip, Rule.closing, Rule.fixed, dropBlanks_cons hblank,
      Rule.blank_eq_none hblank, Rule.quotedSegment_eq_none, Rule.run_eq_none hspan]

theorem scans_atSign (b : Bracket) {cs : List Char} (h : StartsWord cs) :
    Scans b.mode ('@' :: cs) [.atSign] b.mode cs := by
  have hblank : isBlank '@' = false := rfl
  have hspan := b.span_of_mem (c := '@') (by simp) cs
  obtain ⟨c, rest, rfl, -, -, hbrace⟩ := h
  -- A closing brace behind the at sign would make a closing bracket of the two.
  cases b <;>
  · simp only [units] at hspan
    refine Scans.of_rules (x := ⟨.atSign, ['@'], c :: rest⟩) ?_
    simp [mode, Mode.rules, Mode.skip, Rule.closing, Rule.fixed, dropBlanks_cons hblank,
      Rule.blank_eq_none hblank, Rule.quotedSegment_eq_none, Rule.run_eq_none hspan, Ne.symm hbrace]

/-- An opening bracket, with one space behind it. -/
theorem scans_start (b : Bracket) {cs : List Char} (h : StartsWord cs) :
    Scans .text (b.start.1 ++ ' ' :: cs) [b.start.2] b.mode cs := by
  have hspace : isBlank ' ' = true := rfl
  obtain ⟨c, rest, rfl, hblank, -⟩ := h
  cases b with
  | expansion =>
    refine Scans.of_rules (x := ⟨.openExpansion, ['{', '{', ' '], c :: rest⟩) ?_
    simp [Mode.rules, Mode.skip, Rule.opening, Rule.fixed, start, dropBlanks, leadingBlanks, hspace,
      hblank]
  | tag =>
    refine Scans.of_rules (x := ⟨.openTag, ['{', '@', ' '], c :: rest⟩) ?_
    simp [Mode.rules, Mode.skip, Rule.opening, Rule.fixed, start, dropBlanks, leadingBlanks, hspace,
      hblank]

/-- A closing bracket, with one space in front of it. -/
theorem scans_close (b : Bracket) (rest : List Char) :
    Scans b.mode (' ' :: b.close.1 ++ rest) [b.close.2] .text rest := by
  have hspace : isBlank ' ' = true := rfl
  have hbrace : isBlank '}' = false := rfl
  have hat : isBlank '@' = false := rfl
  cases b with
  | expansion =>
    refine Scans.of_rules (x := ⟨.closeExpansion, [' ', '}', '}'], rest⟩) ?_
    simp [mode, Mode.rules, Mode.skip, Rule.closing, Rule.fixed, close, dropBlanks, leadingBlanks,
      hspace, hbrace]
  | tag =>
    refine Scans.of_rules (x := ⟨.closeTag, [' ', '@', '}'], rest⟩) ?_
    simp [mode, Mode.rules, Mode.skip, Rule.closing, Rule.fixed, close, dropBlanks, leadingBlanks,
      hspace, hat]

/-! ## Names -/

theorem after_segment (b : Bracket) (name : String) : b.mode.after (.segment name) = b.mode := by
  cases b <;> rfl

theorem segmentOf_escape {special : Char → Bool} (h : special '\\' = true) (name : String) :
    Rule.segmentOf (escape special name.toList) = .segment name := by
  rw [Rule.segmentOf, unescape_escape h, String.ofList_toList]

/-- A run of units at the front of a text is a word, if no rule in front of it applies. -/
theorem scans_word (b : Bracket) {cs spelling rest : List Char} (h : StartsWord cs)
    (hquote : cs.head? ≠ some '\x60') (hspan : b.units.span cs = (spelling, rest))
    (hne : spelling ≠ []) :
    Scans b.mode cs [b.word spelling] (b.mode.after (b.word spelling)) rest := by
  obtain ⟨c, tail, rfl, hblank, hat, hbrace⟩ := h
  have hc : c ≠ '\x60' := by
    rintro rfl
    exact hquote rfl
  refine Scans.of_rules (x := ⟨b.word spelling, spelling, rest⟩) ?_
  cases b <;>
  · simp only [units] at hspan
    simp [mode, word, Mode.rules, Mode.skip, Rule.closing, Rule.fixed, dropBlanks_cons hblank,
      Rule.blank_eq_none hblank, Rule.quotedSegment_eq_none hc, Rule.run_eq_some hspan hne,
      Ne.symm hat, Ne.symm hbrace]

/-- A name in backticks. -/
theorem scans_enclosed (b : Bracket) {name : String} (hname : name ≠ "") (rest : List Char) :
    Scans b.mode (enclose '\x60' name.toList ++ rest) [.segment name] b.mode rest := by
  have hblank : isBlank '\x60' = false := rfl
  have hquoted := @Units.spanQuoted_enclose quotedUnits '\x60' name.toList rest (by decide)
    ⟨by decide, by decide⟩ fun c next => by simp [quotedUnits]
  have hne : escape (escapedIn '\x60') name.toList ≠ [] := by
    rw [Ne, escape_eq_nil_iff, String.toList_eq_nil_iff]
    exact hname
  have hsegment : Rule.quotedSegment (enclose '\x60' name.toList ++ rest) =
      some ⟨.segment name, enclose '\x60' name.toList, rest⟩ := by
    rw [Rule.quotedSegment, hquoted]
    simp only [if_neg hne, @segmentOf_escape (escapedIn '\x60') (by decide)]
    rfl
  have hrules : b.mode.rules.findSome? (· (b.mode.skip (enclose '\x60' name.toList ++ rest))) =
      some ⟨.segment name, enclose '\x60' name.toList, rest⟩ := by
    simp only [enclose, List.cons_append, List.append_assoc, List.nil_append] at hsegment ⊢
    cases b <;>
    simp [mode, Mode.rules, Mode.skip, Rule.closing, Rule.fixed, dropBlanks_cons hblank,
      Rule.blank_eq_none hblank, hsegment]
  have hscans := Scans.of_rules hrules
  rwa [b.after_segment] at hscans

/-- The characters of a name that can be written bare are plain unless they are escaped. -/
theorem plain_of_allowsBare {b : Bracket} {name : List Char} (h : b.allowsBare name = true)
    {c : Char} (hc : c ∈ name) (hescaped : escapedInName c = false) :
    isBlank c = false ∧ c ∉ ['@', '}', '\x60', '\\'] ∧ ∀ next, b.units.plain c next = true := by
  simp only [allowsBare, Bool.and_eq_true, List.all_eq_true, Bool.or_eq_true] at h
  obtain ⟨hall, hbracket⟩ := h
  have hc' := hall c hc
  simp only [escapedInName, List.mem_cons, List.not_mem_nil, or_false, decide_eq_false_iff_not,
    not_or] at hescaped
  simp only [Bool.not_eq_true', decide_eq_true_eq] at hc'
  refine ⟨hc'.1, by simp [hescaped, hc'.2], ?_⟩
  intro next
  have hplain : expansionUnits.plain c next = true := by
    simp [expansionUnits, hc', hescaped]
  cases b with
  | expansion => exact hplain
  | tag =>
    rcases hbracket with h | ⟨hcomparators, -⟩
    · simp at h
    · have := hcomparators c hc
      simp only [units, tagUnits, hplain, Bool.true_and]
      exact this

/-- A bare name is one run of units, up to the character that ends it. -/
theorem span_bare {b : Bracket} {name : List Char} (h : b.allowsBare name = true)
    {rest : List Char} (hrest : b.units.span rest = ([], rest)) :
    b.units.span (escape escapedInName name ++ rest) = (escape escapedInName name, rest) := by
  refine Units.span_escape ?_ ?_ hrest
  · intro c _ hc
    cases b <;> exact hc
  · intro c hc hescaped
    obtain ⟨-, hc, hplain⟩ := plain_of_allowsBare h hc hescaped
    exact ⟨fun hslash => hc (by simp [hslash]), hplain⟩

theorem notMem_word (k : Keyword) : '\\' ∉ k.word.toList := by
  cases k <;> decide

/-- A bare name is no keyword. Where something in it is escaped it has a backslash, which no keyword
has. -/
theorem word_escape {b : Bracket} {name : String} (h : b.allowsBare name.toList = true) :
    b.word (escape escapedInName name.toList) = .segment name := by
  have hsegment := @segmentOf_escape escapedInName (by decide) name
  cases b with
  | expansion => exact hsegment
  | tag =>
    have hkeyword : Keyword.ofWord? (String.ofList (escape escapedInName name.toList)) = none := by
      cases hword : Keyword.ofWord? (String.ofList (escape escapedInName name.toList)) with
      | none => rfl
      | some k =>
        have hk : k.word.toList = escape escapedInName name.toList := by
          have := List.find?_some hword
          rw [of_decide_eq_true this, String.toList_ofList]
        -- Nothing in it is escaped then, so the name itself would be the keyword.
        have hself := escape_eq_self (hk ▸ notMem_word k)
        simp only [allowsBare, Bool.and_eq_true, Bool.or_eq_true, Option.isNone_iff_eq_none] at h
        rcases h.2 with hbracket | ⟨-, hnone⟩
        · simp at hbracket
        · rw [hself, hnone] at hword
          cases hword
    show Rule.wordOf _ = _
    rw [Rule.wordOf, hkeyword]
    exact hsegment

theorem startsWord_escape {b : Bracket} {name : String} (h : b.allowsBare name.toList = true)
    (hname : name ≠ "") :
    StartsWord (escape escapedInName name.toList) ∧
      (escape escapedInName name.toList).head? ≠ some '\x60' := by
  have hne : escape escapedInName name.toList ≠ [] := by
    rw [Ne, escape_eq_nil_iff, String.toList_eq_nil_iff]
    exact hname
  obtain ⟨c, tail, hcs⟩ := List.exists_cons_of_ne_nil hne
  rw [hcs]
  rcases head?_escape (c := c) (by rw [hcs]; rfl) with rfl | ⟨hescaped, hc⟩
  · exact ⟨⟨'\\', tail, rfl, rfl, by decide, by decide⟩, by simp⟩
  · obtain ⟨hblank, hmem, -⟩ := plain_of_allowsBare h hc hescaped
    simp only [List.mem_cons, List.not_mem_nil, or_false, not_or] at hmem
    exact ⟨⟨c, tail, rfl, hblank, hmem.1, hmem.2.1⟩, by simp [hmem.2.2.1]⟩

section

variable {b : Bracket} {name : String} {cs rest : List Char}

theorem WritesName.startsWord (h : b.WritesName name cs) (hname : name ≠ "") : StartsWord cs := by
  rcases h with rfl | ⟨hbare, rfl⟩
  · exact ⟨'\x60', _, rfl, rfl, by decide, by decide⟩
  · exact (startsWord_escape hbare hname).1

/-- A name is recognised in whichever way it is written. -/
theorem WritesName.scans (h : b.WritesName name cs) (hname : name ≠ "")
    (hrest : b.units.span rest = ([], rest)) :
    Scans b.mode (cs ++ rest) [.segment name] b.mode rest := by
  rcases h with rfl | ⟨hbare, rfl⟩
  · exact b.scans_enclosed hname rest
  · obtain ⟨hstart, hquote⟩ := startsWord_escape hbare hname
    obtain ⟨c, tail, hcs, -⟩ := id hstart
    have hscans := b.scans_word (hstart.append rest) (by rwa [hcs] at hquote ⊢)
      (span_bare hbare hrest) (by simp [hcs])
    rwa [word_escape hbare, b.after_segment] at hscans

end

end Bracket

/-! ## Paths -/

section

variable {b : Bracket} {cs rest : List Char}

theorem Lookup.Written.startsWord {l : Lookup} (h : l.Written b cs) (hl : l.WellFormed) :
    StartsWord cs := by
  unfold Lookup.Written at h
  split at h
  · exact Bracket.WritesName.startsWord h hl.1
  · obtain ⟨table, key, htable, -, rfl⟩ := h
    exact (htable.startsWord hl.1).append _

theorem Lookup.Written.scans {l : Lookup} (h : l.Written b cs) (hl : l.WellFormed)
    (hrest : b.units.span rest = ([], rest)) : Scans b.mode (cs ++ rest) l.tokens b.mode rest := by
  obtain ⟨table, index⟩ := l
  cases index with
  | none => exact Bracket.WritesName.scans h hl.1 hrest
  | some index =>
    obtain ⟨first, key, htable, hindex, rfl⟩ := h
    have hne : index ≠ "" := by
      rintro rfl
      exact hl.2 rfl
    have hname := htable.scans hl.1 (b.span_of_mem (c := '@') (by simp) (key ++ rest))
    have hat := b.scans_atSign ((hindex.startsWord hne).append rest)
    rw [List.append_assoc, List.cons_append]
    exact (hname.trans hat).trans (hindex.scans hne hrest)

theorem WrittenPath.startsWord {field : String} {path : List Lookup}
    (h : WrittenPath b field path cs) (hpath : ∀ l ∈ path, l.WellFormed) (hfield : field ≠ "") :
    StartsWord cs := by
  cases path with
  | nil => exact Bracket.WritesName.startsWord h hfield
  | cons l path =>
    obtain ⟨first, others, hfirst, -, rfl⟩ := h
    exact (hfirst.startsWord (hpath l List.mem_cons_self)).append _

theorem WrittenPath.scans {field : String} {path : List Lookup} (h : WrittenPath b field path cs)
    (hpath : ∀ l ∈ path, l.WellFormed) (hfield : field ≠ "")
    (hrest : b.units.span rest = ([], rest)) :
    Scans b.mode (cs ++ rest) (Expansion.tokens ⟨path, field⟩) b.mode rest := by
  induction path generalizing cs with
  | nil => exact Bracket.WritesName.scans h hfield hrest
  | cons l path ih =>
    obtain ⟨first, others, hfirst, hothers, rfl⟩ := h
    rw [List.forall_mem_cons] at hpath
    have hdot := b.span_of_mem (c := '.') (by simp) (others ++ rest)
    have hscans := (hfirst.scans hpath.1 hdot).trans (b.scans_dot (others ++ rest))
    simpa [Expansion.tokens] using hscans.trans (ih hothers hpath.2)

end

end MailMerge.Markup
