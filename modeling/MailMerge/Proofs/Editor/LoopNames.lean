/-
Finding loop names in the text of a template, without cutting it into tokens. Every loop tag is found
with its name, unless the name is spelled with an escape that seems to end it. Elsewhere something is
found only where a bracket and the word `for` seem to open a tag.
-/
import MailMerge.Editor.Completion
import MailMerge.Proofs.Markup.Shape

namespace MailMerge.Editor

open MailMerge.Markup MailMerge.Text

variable {c : Char} {cs w rest more name blanks gap word : List Char}

/-! ## Words and white space -/

theorem after?_append (word cs : List Char) : after? word (word ++ cs) = some cs := by
  simp [after?]

theorem after?_eq_none (h : ¬word <+: cs) : after? word cs = none :=
  if_neg h

theorem afterBlanks?_append (hne : blanks ≠ []) (hblanks : ∀ c ∈ blanks, isBlank c = true)
    (h : ∀ c ∈ cs.head?, isBlank c = false) : afterBlanks? (blanks ++ cs) = some cs := by
  have hcs : leadingBlanks cs = [] ∧ dropBlanks cs = cs := by
    cases cs with
    | nil => exact ⟨rfl, rfl⟩
    | cons c cs => exact ⟨leadingBlanks_cons (h c rfl) cs, dropBlanks_cons (h c rfl) cs⟩
  unfold afterBlanks?
  rw [leadingBlanks_append hblanks, dropBlanks_append hblanks, hcs.1, hcs.2, List.append_nil, if_neg hne]

theorem afterBlanks?_cons (h : isBlank c = false) (cs : List Char) :
    afterBlanks? (c :: cs) = none :=
  if_pos (leadingBlanks_cons h cs)

theorem afterFor?_bracket (cs : List Char) :
    afterFor? ('{' :: '@' :: cs) = (after? ['f', 'o', 'r'] (dropBlanks cs)).bind afterBlanks? := by
  have hbracket : after? ['{', '@'] ('{' :: '@' :: cs) = some cs := after?_append _ cs
  rw [afterFor?, hbracket]
  rfl

theorem loopName?_of_other {found : List Char × List Char} (hfor : afterFor? cs = some rest)
    (h : ((after? ['o', 't', 'h', 'e', 'r'] rest).bind afterBlanks?).bind nameBeforeIn? =
      some found) : loopName? cs = some found := by
  simp only [loopName?, hfor, Option.bind_some, h]

theorem loopName?_of_not_other (hfor : afterFor? cs = some rest)
    (h : (after? ['o', 't', 'h', 'e', 'r'] rest).bind afterBlanks? = none) :
    loopName? cs = nameBeforeIn? rest := by
  simp only [loopName?, hfor, Option.bind_some, h, Option.bind_none]

/-! ## Where nothing is found -/

theorem loopName?_eq_none (h : ¬['{', '@'] <+: cs) : loopName? cs = none := by
  rw [loopName?, afterFor?, after?_eq_none h]
  rfl

theorem loopName?_of_afterFor?_eq_none (h : afterFor? cs = none) : loopName? cs = none := by
  rw [loopName?, h]
  rfl

/-- Another word than `for` opens no loop. -/
theorem loopName?_other_word (h : ¬['f', 'o', 'r'] <+: dropBlanks cs) :
    loopName? ('{' :: '@' :: cs) = none := by
  refine loopName?_of_afterFor?_eq_none ?_
  rw [afterFor?_bracket, after?_eq_none h]
  rfl

theorem afterFor?_for (cs : List Char) :
    afterFor? ('{' :: '@' :: 'f' :: 'o' :: 'r' :: cs) = afterBlanks? cs := by
  rw [afterFor?_bracket, dropBlanks_cons rfl]
  exact congrArg (Option.bind · afterBlanks?) (after?_append ['f', 'o', 'r'] cs)

/-- Behind the word `for` white space must stand. -/
theorem loopName?_no_blank (hc : isBlank c = false) (cs : List Char) :
    loopName? ('{' :: '@' :: 'f' :: 'o' :: 'r' :: c :: cs) = none :=
  loopName?_of_afterFor?_eq_none ((afterFor?_for _).trans (afterBlanks?_cons hc cs))

/-- Behind the word `for` a name must stand. -/
theorem loopName?_no_name (hblanks : ∀ c ∈ blanks, isBlank c = true) (hc : isBlank c = false)
    (hname : c ≠ '\x60') (hcharacter : isNameCharacter c = false) :
    loopName? ('{' :: '@' :: 'f' :: 'o' :: 'r' :: (blanks ++ c :: cs)) = none := by
  by_cases hne : blanks = []
  · subst hne
    exact loopName?_no_blank hc cs
  · have hfor := (afterFor?_for (blanks ++ c :: cs)).trans
      (afterBlanks?_append hne hblanks (by simpa using hc))
    have hother : after? ['o', 't', 'h', 'e', 'r'] (c :: cs) = none := by
      refine after?_eq_none fun h => ?_
      obtain rfl := (List.cons_prefix_cons.1 h).1
      cases hcharacter
    rw [loopName?_of_not_other hfor (by rw [hother]; rfl)]
    simp [nameBeforeIn?, spanName, hname, hcharacter]

/-! ## Runs in which nothing is found -/

/-- Nothing is found that starts in a run. -/
def Quiet (w rest : List Char) : Prop :=
  ∀ s, s <:+ w → s ≠ [] → loopName? (s ++ rest) = none

/-- Nothing is found that starts with an opening brace in front of this. -/
def Inert (rest : List Char) : Prop :=
  loopName? ('{' :: rest) = none

theorem inert_of_head? (h : rest.head? ≠ some '@') : Inert rest := by
  refine loopName?_eq_none fun hbracket => h ?_
  obtain ⟨more, hmore⟩ := (List.cons_prefix_cons.1 hbracket).2
  rw [← hmore]
  rfl

theorem inert_closeTag (rest : List Char) : Inert ('@' :: '}' :: rest) :=
  loopName?_other_word (by simp [dropBlanks_cons (show isBlank '}' = false from rfl)])

theorem Quiet.of_cons (h : Quiet (c :: w) rest) : Quiet w rest :=
  fun s hs => h s (hs.trans (List.suffix_cons c w))

theorem quiet_cons (hc : loopName? (c :: w ++ rest) = none) (h : Quiet w rest) :
    Quiet (c :: w) rest := by
  intro s hs hne
  rcases List.suffix_cons_iff.1 hs with rfl | hs
  · exact hc
  · exact h s hs hne

theorem quiet_append (hw : Quiet w (more ++ rest)) (h : Quiet more rest) :
    Quiet (w ++ more) rest := by
  induction w with
  | nil => exact h
  | cons c w ih =>
    have hc := hw (c :: w) List.suffix_rfl (List.cons_ne_nil c w)
    rw [← List.append_assoc] at hc
    exact quiet_cons hc (ih hw.of_cons)

theorem quiet_of_notMem (h : '{' ∉ w) : Quiet w rest := by
  intro s hs hne
  refine loopName?_eq_none fun hbracket => ?_
  obtain ⟨c, s, rfl⟩ := List.exists_cons_of_ne_nil hne
  obtain rfl := (List.cons_prefix_cons.1 hbracket).1
  exact h (hs.subset List.mem_cons_self)

/-- Where a brace stands in a run, another character than `@` follows it or the run ends. -/
theorem quiet_of_not_infix (h : ¬['{', '@'] <:+: w) (hrest : Inert rest) : Quiet w rest := by
  intro s hs hne
  obtain ⟨c, s, rfl⟩ := List.exists_cons_of_ne_nil hne
  cases s with
  | nil =>
    by_cases hc : c = '{'
    · rw [hc]
      exact hrest
    · exact loopName?_eq_none fun hbracket => hc (List.cons_prefix_cons.1 hbracket).1.symm
  | cons d s =>
    refine loopName?_eq_none fun hbracket => h ?_
    obtain ⟨hc, hbracket⟩ := List.cons_prefix_cons.1 hbracket
    obtain ⟨hd, -⟩ := List.cons_prefix_cons.1 hbracket
    rw [← hc, ← hd] at hs
    exact (List.prefix_append ['{', '@'] s).isInfix.trans hs.isInfix

/-- Such a run is passed over. -/
theorem loopNamesIn_append (h : Quiet w rest) : loopNamesIn (w ++ rest) = loopNamesIn rest := by
  induction w with
  | nil => rfl
  | cons c w ih =>
    have hnone : loopName? (c :: (w ++ rest)) = none :=
      h (c :: w) List.suffix_rfl (List.cons_ne_nil c w)
    rw [List.cons_append, loopNamesIn]
    split
    · rename_i hsome
      rw [hnone] at hsome
      cases hsome
    · exact ih h.of_cons

theorem loopNamesIn_of_found (h : loopName? cs = some (name, more)) :
    loopNamesIn cs = name :: loopNamesIn more := by
  cases cs with
  | nil => cases h
  | cons c cs =>
    rw [loopNamesIn]
    split
    · rename_i hsome
      rw [h] at hsome
      cases hsome
      rfl
    · rename_i hnone
      rw [h] at hnone
      cases hnone

/-! ## Loop tags -/

/-- A name that is found as it is spelled: nothing in it seems to end it. -/
def PlainName (w : List Char) : Prop :=
  (∀ c ∈ w, isNameCharacter c = true) ∨
    ∃ inside, w = '\x60' :: inside ++ ['\x60'] ∧ inside ≠ [] ∧ '\x60' ∉ inside

theorem spanName_append (hname : PlainName name) (hne : name ≠ [])
    (hmore : ∀ c ∈ more.head?, isBlank c = true) : spanName (name ++ more) = some (name, more) := by
  rcases hname with hname | ⟨inside, rfl, hinside, hquote⟩
  · have hstop : more.takeWhile isNameCharacter = [] ∧ more.dropWhile isNameCharacter = more := by
      cases more with
      | nil => exact ⟨rfl, rfl⟩
      | cons c more =>
        have hc : isNameCharacter c = false := by simp [isNameCharacter, hmore c rfl]
        simp [hc]
    have htake : (name ++ more).takeWhile isNameCharacter = name := by
      rw [List.takeWhile_append_of_pos hname, hstop.1, List.append_nil]
    have hdrop : (name ++ more).dropWhile isNameCharacter = more := by
      rw [List.dropWhile_append_of_pos hname, hstop.2]
    obtain ⟨c, name, rfl⟩ := List.exists_cons_of_ne_nil hne
    have hc : c ≠ '\x60' := by
      rintro rfl
      cases hname _ List.mem_cons_self
    rw [List.cons_append] at htake hdrop ⊢
    unfold spanName
    simp only [hc, if_false, htake, hdrop]
  · have htake : (inside ++ '\x60' :: more).takeWhile (· ≠ '\x60') = inside := by
      rw [List.takeWhile_append_of_pos (by
        intro c hc
        simpa using fun h : c = '\x60' => hquote (h ▸ hc))]
      simp
    rw [List.append_assoc, List.cons_append, List.singleton_append]
    unfold spanName
    simp only [if_true, htake, List.drop_left, if_neg hinside]

/-- White space is neither letters nor numbers. -/
theorem isAlphanumeric_of_isBlank (h : isBlank c = true) : isAlphanumeric c = false := by
  obtain ⟨r, hr, hlow, hhigh⟩ := mem_of_inRanges h
  by_contra halphanumeric
  rw [Bool.not_eq_false] at halphanumeric
  obtain ⟨q, hq, hlow', hhigh'⟩ := mem_of_inRanges halphanumeric
  have hapart : ∀ r ∈ blankRanges, ∀ q ∈ alphanumericRanges, r.2 < q.1 ∨ q.2 < r.1 := by
    decide +kernel
  have := hapart r hr q hq
  omega

theorem atWordEnd_of_head? (h : ∀ c ∈ cs.head?, isBlank c = true) : atWordEnd cs = true := by
  cases cs with
  | nil => rfl
  | cons c cs =>
    have hc : c ≠ '_' := by
      rintro rfl
      cases h '_' rfl
    simp [atWordEnd, isAlphanumeric_of_isBlank (h c rfl), hc]

/-- A name in front of the word `in`. -/
theorem nameBeforeIn?_append (hname : PlainName name) (hne : name ≠ []) (hgap : gap ≠ [])
    (hblank : ∀ c ∈ gap, isBlank c = true) (hmore : ∀ c ∈ more.head?, isBlank c = true) :
    nameBeforeIn? (name ++ (gap ++ ('i' :: 'n' :: more))) = some (name, more) := by
  have hspan := @spanName_append (gap ++ ('i' :: 'n' :: more)) name hname hne (by
    obtain ⟨c, gap, rfl⟩ := List.exists_cons_of_ne_nil hgap
    simpa using hblank c List.mem_cons_self)
  have hin : after? ['i', 'n'] ('i' :: 'n' :: more) = some more := after?_append _ more
  have hgap' : afterBlanks? (gap ++ ('i' :: 'n' :: more)) = some ('i' :: 'n' :: more) := by
    refine afterBlanks?_append hgap hblank ?_
    rintro _ ⟨⟩
    rfl
  simp only [nameBeforeIn?, hspan, hgap', hin, Option.bind_some, atWordEnd_of_head? hmore, if_true]

/-- A name that is not `other` is not taken for this word. -/
theorem after?_other (hname : PlainName name) (hother : name ≠ ['o', 't', 'h', 'e', 'r'])
    (hmore : ∀ c ∈ more.head?, isBlank c = true) :
    (after? ['o', 't', 'h', 'e', 'r'] (name ++ more)).bind afterBlanks? = none := by
  by_cases hword : ['o', 't', 'h', 'e', 'r'] <+: name ++ more
  · obtain ⟨rest, hrest⟩ := hword
    rw [← hrest, after?_append, Option.bind_some]
    rcases hname with hname | ⟨inside, rfl, -, -⟩
    · rcases List.append_eq_append_iff.1 hrest with ⟨tail, hsplit, rfl⟩ | ⟨tail, hsplit, rfl⟩
      · -- The name is longer than the word, and goes on with what is no white space.
        cases tail with
        | nil => exact (hother (by simpa using hsplit)).elim
        | cons c tail =>
          have hc : isBlank c = false := by
            have := hname c (by simp [hsplit])
            simp_all [isNameCharacter]
          exact afterBlanks?_cons hc (tail ++ more)
      · -- The word is longer than the name, but holds no white space.
        cases tail with
        | nil => exact (hother (by simpa using hsplit.symm)).elim
        | cons c tail =>
          have hblank := hmore c rfl
          have hmem : c ∈ ['o', 't', 'h', 'e', 'r'] := by simp [hsplit]
          simp only [List.mem_cons, List.not_mem_nil, or_false] at hmem
          rcases hmem with rfl | rfl | rfl | rfl | rfl <;> cases hblank
    · cases hrest
  · rw [after?_eq_none hword]
    rfl

theorem PlainName.head (hname : PlainName name) (hne : name ≠ []) (rest : List Char) :
    ∀ c ∈ (name ++ rest).head?, isBlank c = false := by
  rcases hname with hname | ⟨inside, rfl, -, -⟩
  · obtain ⟨c, name, rfl⟩ := List.exists_cons_of_ne_nil hne
    rintro _ ⟨⟩
    have := hname c List.mem_cons_self
    simp_all [isNameCharacter]
  · rintro _ ⟨⟩
    rfl

/-- A bracket and the word `for` open a loop tag. -/
theorem afterFor?_tag (hblanks : ∀ c ∈ blanks, isBlank c = true) (hgap : gap ≠ [])
    (hblank : ∀ c ∈ gap, isBlank c = true) (hrest : ∀ c ∈ rest.head?, isBlank c = false) :
    afterFor? ('{' :: '@' :: (blanks ++ ('f' :: 'o' :: 'r' :: (gap ++ rest)))) = some rest := by
  rw [afterFor?_bracket, dropBlanks_append hblanks, dropBlanks_cons rfl]
  have hfor : after? ['f', 'o', 'r'] ('f' :: 'o' :: 'r' :: (gap ++ rest)) = some (gap ++ rest) :=
    after?_append _ _
  rw [hfor, Option.bind_some, afterBlanks?_append hgap hblank hrest]

section

variable (hname : PlainName name) (hne : name ≠ []) (hgap : gap ≠ [])
  (hblank : ∀ c ∈ gap, isBlank c = true) (hmore : ∀ c ∈ more.head?, isBlank c = true)

include hname hne hgap hblank hmore

/-- A loop tag is found, up to the word `in`, with its name. -/
theorem loopName?_tag (hfor : afterFor? cs = some (name ++ (gap ++ ('i' :: 'n' :: more))))
    (hother : name ≠ ['o', 't', 'h', 'e', 'r']) : loopName? cs = some (name, more) := by
  have hspaced : ∀ c ∈ (gap ++ ('i' :: 'n' :: more)).head?, isBlank c = true := by
    obtain ⟨c, gap, rfl⟩ := List.exists_cons_of_ne_nil hgap
    simpa using hblank c List.mem_cons_self
  rw [loopName?_of_not_other hfor (after?_other hname hother hspaced)]
  exact nameBeforeIn?_append hname hne hgap hblank hmore

/-- The word `other` is passed over in front of the name. -/
theorem loopName?_tag_other (hblanks : blanks ≠ []) (hblanks' : ∀ c ∈ blanks, isBlank c = true)
    (hfor : afterFor? cs = some (['o', 't', 'h', 'e', 'r'] ++
      (blanks ++ (name ++ (gap ++ ('i' :: 'n' :: more)))))) : loopName? cs = some (name, more) := by
  refine loopName?_of_other hfor ?_
  rw [after?_append, Option.bind_some, afterBlanks?_append hblanks hblanks' (hname.head hne _),
    Option.bind_some]
  exact nameBeforeIn?_append hname hne hgap hblank hmore

end

end MailMerge.Editor
