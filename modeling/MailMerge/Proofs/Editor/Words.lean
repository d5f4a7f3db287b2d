/-
The word around the cursor. Two walks from the cursor, to the left and to the right, end at the ends
of a stretch of word characters that cannot be extended, and there is only one around the cursor. So
the walks end at the same places wherever in a word they start, and an editor shows the same there.
-/
import MailMerge.Editor.Document
import MailMerge.Proofs.List

namespace MailMerge.Editor

variable {cs : List Char} {left right left' right' m n : Nat}

/-! ## Places in a word -/

theorem inWord_eq (h : n < cs.length) : inWord cs n = isWordCharacter cs[n] := by
  rw [inWord, List.getElem?_eq_getElem h]
  rfl

theorem inWord_of_length_le (h : cs.length ≤ n) : inWord cs n = false := by
  rw [inWord, List.getElem?_eq_none h]
  rfl

theorem lt_length_of_inWord (h : inWord cs n = true) : n < cs.length := by
  refine Nat.lt_of_not_le fun hle => ?_
  rw [inWord_of_length_le hle] at h
  cases h

/-- The word from `left` up to `right`: word characters, and none in front of them or behind. -/
structure IsWord (cs : List Char) (left right : Nat) : Prop where
  left_lt : left < right
  right_le : right ≤ cs.length
  inside : ∀ n, left ≤ n → n < right → inWord cs n = true
  left_end : left = 0 ∨ inWord cs (left - 1) = false
  right_end : right = cs.length ∨ inWord cs right = false

namespace IsWord

/-- A word does not start inside of another one. -/
theorem left_le (h : IsWord cs left right) (h' : IsWord cs left' right')
    (hlt : left < right') : left ≤ left' := by
  rcases h.left_end with hzero | hout
  · omega
  · refine Nat.le_of_not_lt fun hinside => ?_
    rw [h'.inside (left - 1) (by omega) (by omega)] at hout
    cases hout

/-- A word does not end inside of another one. -/
theorem le_right (h : IsWord cs left right) (h' : IsWord cs left' right')
    (hlt : left' < right) : right' ≤ right := by
  rcases h.right_end with hlength | hout
  · exact hlength ▸ h'.right_le
  · refine Nat.le_of_not_lt fun hinside => ?_
    rw [h'.inside right (by omega) hinside] at hout
    cases hout

/-- Around a place there is only one word. -/
theorem unique (h : IsWord cs left right) (h' : IsWord cs left' right')
    (hn : left ≤ n ∧ n < right) (hn' : left' ≤ n ∧ n < right') : left' = left ∧ right' = right := by
  have hlt : left < right' := by omega
  have hlt' : left' < right := by omega
  constructor
  · exact Nat.le_antisymm (h'.left_le h hlt') (h.left_le h' hlt)
  · exact Nat.le_antisymm (h.le_right h' hlt') (h'.le_right h hlt)

end IsWord

/-! ## The walks -/

theorem wordStart_le (cs : List Char) (n : Nat) : wordStart cs n ≤ n := by
  induction n with
  | zero => exact Nat.le_refl _
  | succ n ih =>
    rw [wordStart]
    split
    · omega
    · exact Nat.le_refl _

/-- The walk to the left passes word characters only. -/
theorem inWord_of_wordStart_le (hm : wordStart cs n ≤ m) (hn : m < n) : inWord cs m = true := by
  induction n with
  | zero => omega
  | succ n ih =>
    rw [wordStart] at hm
    split at hm
    · rename_i hin
      rcases Nat.lt_succ_iff_lt_or_eq.1 hn with hlt | rfl
      · exact ih hm hlt
      · exact hin
    · omega

theorem wordStart_end (cs : List Char) (n : Nat) :
    wordStart cs n = 0 ∨ inWord cs (wordStart cs n - 1) = false := by
  induction n with
  | zero => exact .inl rfl
  | succ n ih =>
    rw [wordStart]
    split
    · exact ih
    · rename_i hout
      exact .inr (Bool.eq_false_iff.2 hout)

theorem le_wordStop (cs : List Char) (n : Nat) : n ≤ wordStop cs n := by
  fun_induction wordStop cs n with
  | case1 n _ ih => omega
  | case2 n _ => exact Nat.le_refl _

theorem wordStop_le (h : n ≤ cs.length) : wordStop cs n ≤ cs.length := by
  fun_induction wordStop cs n with
  | case1 n hin ih => exact ih hin.1
  | case2 n _ => exact h

/-- The walk to the right passes word characters only. -/
theorem inWord_of_lt_wordStop (hn : n ≤ m) (hm : m < wordStop cs n) : inWord cs m = true := by
  fun_induction wordStop cs n with
  | case1 n hin ih =>
    rcases Nat.eq_or_lt_of_le hn with rfl | hlt
    · exact hin.2
    · exact ih hlt hm
  | case2 n _ => omega

theorem wordStop_end (h : n ≤ cs.length) :
    wordStop cs n = cs.length ∨ inWord cs (wordStop cs n) = false := by
  fun_induction wordStop cs n with
  | case1 n hin ih => exact ih hin.1
  | case2 n hout =>
    rcases Nat.eq_or_lt_of_le h with hlength | hlt
    · exact .inl hlength
    · exact .inr (Bool.eq_false_iff.2 fun hin => hout ⟨hlt, hin⟩)

theorem lt_wordStop (h : inWord cs n = true) : n < wordStop cs n := by
  rw [wordStop, if_pos ⟨lt_length_of_inWord h, h⟩]
  exact le_wordStop cs (n + 1)

/-- From a place in a word the walks lead to the ends of that word. -/
theorem isWord_walked (h : inWord cs n = true) :
    IsWord cs (wordStart cs n) (wordStop cs n) := by
  have hn := lt_length_of_inWord h
  refine ⟨?_, wordStop_le (Nat.le_of_lt hn), fun m hleft hright => ?_, wordStart_end cs n,
    wordStop_end (Nat.le_of_lt hn)⟩
  · exact Nat.lt_of_le_of_lt (wordStart_le cs n) (lt_wordStop h)
  · -- The place itself is passed by the walk to the right.
    rcases Nat.lt_or_ge m n with hlt | hle
    · exact inWord_of_wordStart_le hleft hlt
    · exact inWord_of_lt_wordStop hle hright

/-- Wherever in a word they start, the walks lead to the same ends. -/
theorem IsWord.walked (h : IsWord cs left right) (hn : left ≤ n ∧ n < right) :
    wordStart cs n = left ∧ wordStop cs n = right := by
  have hin := h.inside n hn.1 hn.2
  exact h.unique (isWord_walked hin) hn ⟨wordStart_le cs n, lt_wordStop hin⟩

/-! ## What lies between the ends -/

/-- What the walk to the left passes. -/
theorem reverse_takeWhile_take (hn : n ≤ cs.length) :
    ((cs.take n).reverse.takeWhile isWordCharacter).reverse = cs.extract (wordStart cs n) n := by
  induction n with
  | zero => rfl
  | succ n ih =>
    rw [List.take_succ_eq_append_getElem hn, List.reverse_append, List.reverse_singleton,
      List.singleton_append, wordStart, inWord_eq hn]
    split
    · rename_i hin
      rw [List.takeWhile_cons_of_pos hin, List.reverse_cons, ih (Nat.le_of_lt hn),
        ← extract_succ hn, extract_append_extract cs (wordStart_le cs n) (Nat.le_succ n)]
    · rename_i hout
      rw [List.takeWhile_cons_of_neg hout, List.extract_eq_take_drop, Nat.sub_self]
      rfl

/-- What the walk to the right passes. -/
theorem takeWhile_drop (cs : List Char) (n : Nat) :
    (cs.drop n).takeWhile isWordCharacter = cs.extract n (wordStop cs n) := by
  fun_induction wordStop cs n with
  | case1 n hin ih =>
    rw [inWord_eq hin.1] at hin
    rw [List.drop_eq_getElem_cons hin.1, List.takeWhile_cons_of_pos hin.2, ih,
      ← extract_append_extract cs (Nat.le_succ n) (le_wordStop cs (n + 1)), extract_succ hin.1]
    rfl
  | case2 n hout =>
    rw [List.extract_eq_take_drop, Nat.sub_self, List.take_zero]
    rcases Nat.lt_or_ge n cs.length with hlt | hge
    · rw [inWord_eq hlt] at hout
      rw [List.drop_eq_getElem_cons hlt, List.takeWhile_cons_of_neg fun hin => hout ⟨hlt, hin⟩]
    · rw [List.drop_eq_nil_of_le hge]
      rfl

/-- The word around a character is what the two walks from it pass. -/
theorem wordAt_of_inWord (h : inWord cs n = true) :
    wordAt cs n = cs.extract (wordStart cs n) (wordStop cs n) := by
  have hn := lt_length_of_inWord h
  have hword : (cs.drop n).takeWhile isWordCharacter =
      cs[n] :: (cs.drop (n + 1)).takeWhile isWordCharacter := by
    rw [List.drop_eq_getElem_cons hn, List.takeWhile_cons_of_pos (inWord_eq hn ▸ h)]
  simp only [wordAt, if_pos (Int.natCast_nonneg n), Int.toNat_natCast, hword]
  rw [← hword, reverse_takeWhile_take (Nat.le_of_lt hn), takeWhile_drop,
    extract_append_extract cs (wordStart_le cs n) (le_wordStop cs n)]

theorem wordAt_of_not_inWord (h : inWord cs n = false) : wordAt cs n = [] := by
  have hword : (cs.drop n).takeWhile isWordCharacter = [] := by
    rw [takeWhile_drop, wordStop, if_neg fun hin => Bool.eq_false_iff.1 h hin.2,
      List.extract_eq_take_drop, Nat.sub_self, List.take_zero]
  simp only [wordAt, if_pos (Int.natCast_nonneg n), Int.toNat_natCast, hword]

theorem wordAt_of_neg {index : Int} (h : index < 0) : wordAt cs index = [] := by
  rw [wordAt, if_neg (Int.not_le.2 h)]

/-- The two walks find the word around every character. -/
theorem wordAt_eq_walkedWordAt (cs : List Char) (index : Int) :
    wordAt cs index = walkedWordAt cs index := by
  unfold walkedWordAt
  by_cases hneg : index < 0
  · rw [if_pos (.inl hneg), wordAt_of_neg hneg]
  · obtain ⟨n, rfl⟩ := Int.eq_ofNat_of_zero_le (Int.not_lt.1 hneg)
    rw [Int.toNat_natCast]
    split
    · exact wordAt_of_not_inWord (inWord_of_length_le (by omega))
    · split
      · rename_i hin
        exact wordAt_of_inWord hin
      · rename_i hout
        exact wordAt_of_not_inWord (Bool.eq_false_iff.2 hout)

/-! ## The word around the cursor -/

theorem IsWord.extract_ne_nil (h : IsWord cs left right) : cs.extract left right ≠ [] := by
  have hlt := h.left_lt
  have hle := h.right_le
  refine List.ne_nil_of_length_pos ?_
  rw [List.extract_eq_take_drop, List.length_take, List.length_drop]
  omega

/-- Everywhere in a word the word is found. -/
theorem IsWord.wordAt_eq (h : IsWord cs left right) (hn : left ≤ n ∧ n < right) :
    wordAt cs n = cs.extract left right := by
  obtain ⟨hstart, hstop⟩ := h.walked hn
  rw [wordAt_of_inWord (h.inside n hn.1 hn.2), hstart, hstop]

/-- Everywhere in a word the editor shows what it knows about the word. -/
theorem IsWord.hover_eq (h : IsWord cs left right) (hn : left ≤ n ∧ n < right) {d : Document}
    {k : Nat} (hline : d.lines[k]? = some cs) :
    d.hover k n = hoverText (String.ofList (cs.extract left right)) := by
  rw [Document.hover, hline, Option.bind_some, hoverAt, h.wordAt_eq hn]
  split
  · rename_i hnil
    exact absurd hnil h.extract_ne_nil
  · rfl

theorem exists_inWord_of_wordAt {index : Int} (h : wordAt cs index ≠ []) :
    ∃ n : Nat, index = n ∧ inWord cs n = true := by
  rw [wordAt_eq_walkedWordAt, walkedWordAt] at h
  split at h
  · exact absurd rfl h
  · rename_i hrange
    split at h
    · rename_i hin
      exact ⟨index.toNat, by omega, hin⟩
    · exact absurd rfl h

/-- No word is found in front of the line, behind it, and where no word character stands. -/
theorem wordAt_eq_nil_iff (cs : List Char) (index : Int) :
    wordAt cs index = [] ↔
      index < 0 ∨ cs.length ≤ index ∨
        ∃ c, cs[index.toNat]? = some c ∧ isWordCharacter c = false := by
  rw [wordAt_eq_walkedWordAt, walkedWordAt]
  split
  · rename_i hout
    exact iff_of_true rfl (hout.imp_right .inl)
  · rename_i hrange
    split
    · rename_i hin
      refine iff_of_false (isWord_walked hin).extract_ne_nil ?_
      rintro (hneg | hlength | ⟨c, hc, hout⟩)
      · exact hrange (.inl hneg)
      · exact hrange (.inr hlength)
      · rw [inWord, hc, Option.any_some, hout] at hin
        cases hin
    · rename_i hout
      have hlt : index.toNat < cs.length := by omega
      rw [inWord_eq hlt] at hout
      exact iff_of_true rfl
        (.inr (.inr ⟨_, List.getElem?_eq_getElem hlt, Bool.eq_false_iff.2 hout⟩))

/-- The word around the cursor is the longest one: there is none exactly if the cursor is outside
of the line or at no word character, and else it is cut out of the line where the word characters
around the cursor begin and end. Everywhere in it the same word is found, and the same is shown. -/
theorem wordAt_maximal (cs : List Char) (index : Int) :
    (wordAt cs index = [] ↔
      index < 0 ∨ cs.length ≤ index ∨
        ∃ c, cs[index.toNat]? = some c ∧ isWordCharacter c = false) ∧
    (wordAt cs index ≠ [] → ∃ left right : Nat,
      IsWord cs left right ∧ (left ≤ index ∧ index < right) ∧
        wordAt cs index = cs.extract left right ∧
        ∀ n : Nat, left ≤ n → n < right →
          wordAt cs n = cs.extract left right ∧
          ∀ (d : Document) (k : Nat), d.lines[k]? = some cs →
            d.hover k n = hoverText (String.ofList (cs.extract left right))) := by
  refine ⟨wordAt_eq_nil_iff cs index, fun hne => ?_⟩
  obtain ⟨n, rfl, hin⟩ := exists_inWord_of_wordAt hne
  have hword := isWord_walked hin
  have hn : wordStart cs n ≤ n ∧ n < wordStop cs n := ⟨wordStart_le cs n, lt_wordStop hin⟩
  refine ⟨_, _, hword, by omega, hword.wordAt_eq hn, fun m hleft hright => ?_⟩
  exact ⟨hword.wordAt_eq ⟨hleft, hright⟩, fun d k => hword.hover_eq ⟨hleft, hright⟩⟩

/-- A special field behind a dot, up to the end of the line. -/
theorem wordAt_maximal_field :
    let cs := ['ö', '.', '$', 'i', 'd', '\n']
    let d : Document := ⟨String.ofList cs, .new⟩
    wordAt cs 3 ≠ [] ∧ d.lines[0]? = some cs ∧ IsWord cs 2 5 ∧
      wordAt cs 3 = ['$', 'i', 'd'] ∧
      (2 ≤ 4 ∧ 4 < 5) ∧ wordAt cs 4 = wordAt cs 3 ∧ d.hover 0 4 = hoverText "$id" := by
  intro cs d
  have hne : wordAt cs 3 ≠ [] := by decide
  have hline : d.lines[0]? = some cs := by
    rw [Document.lines, String.toList_ofList]
    rfl
  have hword : IsWord cs 2 5 := by
    refine ⟨by decide, by decide, fun n hleft hright => ?_, .inr rfl, .inr rfl⟩
    have hn : n = 2 ∨ n = 3 ∨ n = 4 := by omega
    rcases hn with rfl | rfl | rfl <;> rfl
  obtain ⟨left, right, hfound, hin, heq, hall⟩ := (wordAt_maximal cs 3).2 hne
  -- There is only one word around the cursor, so it is the one above.
  obtain ⟨rfl, rfl⟩ := hword.unique (n := 3) hfound (by decide) (by omega)
  obtain ⟨hsame, hhover⟩ := hall 4 (by decide) (by decide)
  exact ⟨hne, hline, hword, heq, by decide, hsame.trans heq.symm, hhover d 0 hline⟩

end MailMerge.Editor
