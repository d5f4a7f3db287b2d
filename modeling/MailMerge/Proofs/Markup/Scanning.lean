/-
What the scanner makes of written tokens. A run of the scanner is a chain of single tokens, so a
text is cut into the tokens that were written if each of them is recognised where it stands,
whatever comes after its end.
-/
import MailMerge.Proofs.Markup.Reading

namespace MailMerge.Markup

open MailMerge.Text MailMerge.Number

/-! ## Runs of the scanner -/

/-- The text at which a token is looked for: layout in front of a literal is passed over. -/
def Mode.skip (mode : Mode) (cs : List Char) : List Char :=
  if mode = .literal then cs.dropWhile isLayout else cs

theorem Cursor.rest_skipLayout (c : Cursor) : c.skipLayout.rest = c.mode.skip c.rest := by
  unfold skipLayout Mode.skip
  split
  · have := @List.drop_left _ (c.rest.takeWhile isLayout) (c.rest.dropWhile isLayout)
    rwa [List.takeWhile_append_dropWhile] at this
  · rfl

theorem Cursor.mode_skipLayout (c : Cursor) : c.skipLayout.mode = c.mode := by
  unfold skipLayout
  split <;> rfl

/-- `Scans mode cs kinds mode' rest`: in `mode`, tokens of these kinds are cut from the front of
`cs`, and the scanner is left in `mode'` in front of `rest`. -/
inductive Scans : Mode → List Char → List TokenKind → Mode → List Char → Prop
  | nil {mode : Mode} {cs : List Char} : Scans mode cs [] mode cs
  | cons {mode mode' : Mode} {cs rest : List Char} {kinds : List TokenKind} {x : Lexeme} :
    mode.scan (mode.skip cs) = .ok x → Scans (mode.after x.kind) x.rest kinds mode' rest →
      Scans mode cs (x.kind :: kinds) mode' rest

namespace Scans

variable {mode mode' mode'' : Mode} {cs rest rest' : List Char} {kinds more : List TokenKind}

theorem trans (h : Scans mode cs kinds mode' rest) (hmore : Scans mode' rest more mode'' rest') :
    Scans mode cs (kinds ++ more) mode'' rest' := by
  induction h with
  | nil => exact hmore
  | cons hscan _ ih => exact .cons hscan (ih hmore)

/-- A run to the end of the text is what a reader does there. -/
theorem readTokens (h : Scans mode cs kinds mode' rest) (hrest : rest = []) (r : Reader)
    (hmode : r.cursor.mode = mode) (hcs : r.cursor.rest = cs) :
    r.readTokens.1.map (·.kind) = kinds ∧ r.readTokens.2.1 = none := by
  induction h generalizing r with
  | @nil mode cs =>
    subst hrest hmode
    have hend : r.cursor.skipLayout.rest = [] := by
      rw [Cursor.rest_skipLayout, hcs]
      unfold Mode.skip
      split <;> rfl
    have hstep : r.cursor.step = .finished r.cursor.skipLayout := by
      unfold Cursor.step
      simp only [hend, if_true]
    rw [Reader.readTokens, hstep]
    exact ⟨rfl, rfl⟩
  | @cons mode mode' cs rest kinds x hscan _ ih =>
    subst hmode hcs
    -- A token covers some characters, so the text was not at its end.
    have hne : r.cursor.mode.skip r.cursor.rest ≠ [] := by
      obtain ⟨hspelling, hcut⟩ := Mode.scan_cuts hscan
      rw [← hcut]
      simp [hspelling]
    have hstep : r.cursor.step =
        .token ⟨x.kind, r.cursor.skipLayout.position, String.ofList x.spelling⟩
          ⟨r.cursor.mode.after x.kind, r.cursor.skipLayout.position + x.spelling.length, x.rest⟩ := by
      unfold Cursor.step
      simp only [Cursor.mode_skipLayout, Cursor.rest_skipLayout, if_neg hne, hscan]
    obtain ⟨htokens, hfault⟩ := Reader.readTokens_token hstep
    obtain ⟨hkinds, hnone⟩ := ih hrest { r with cursor := ⟨r.cursor.mode.after x.kind,
      r.cursor.skipLayout.position + x.spelling.length, x.rest⟩ } rfl rfl
    rw [htokens, hfault, List.map_cons, hkinds]
    exact ⟨rfl, hnone⟩

/-- A run over a whole template is how it is cut into tokens. -/
theorem tokenize (h : Scans .text cs kinds mode []) :
    ∃ tokens, tokenize (String.ofList cs) = .ok tokens ∧ tokens.map (·.kind) = kinds := by
  obtain ⟨hkinds, hfault⟩ := h.readTokens rfl (Reader.new.load (String.ofList cs)) rfl
    (String.toList_ofList)
  exact ⟨_, tokenize_eq_ok_iff.2 ⟨rfl, hfault⟩, hkinds⟩

/-- A single token that one of the rules recognises. -/
theorem of_rules {x : Lexeme} (h : mode.rules.findSome? (· (mode.skip cs)) = some x) :
    Scans mode cs [x.kind] (mode.after x.kind) x.rest := by
  refine .cons ?_ .nil
  unfold Mode.scan
  rw [h]

end Scans

/-! ## Rules that do not apply -/

theorem leadingBlanks_cons {c : Char} (h : isBlank c = false) (cs : List Char) :
    leadingBlanks (c :: cs) = [] := by
  simp [leadingBlanks, h]

theorem dropBlanks_cons {c : Char} (h : isBlank c = false) (cs : List Char) :
    dropBlanks (c :: cs) = c :: cs := by
  simp [dropBlanks, h]

namespace Rule

theorem blank_eq_none {c : Char} (h : isBlank c = false) (cs : List Char) :
    blank (c :: cs) = none := by
  simp [blank, leadingBlanks_cons h]

theorem quotedSegment_eq_none {c : Char} (h : c ≠ '\x60') (cs : List Char) :
    quotedSegment (c :: cs) = none := by
  simp [quotedSegment, Units.spanQuoted, h]

theorem run_eq_none {units : Units} {kind : List Char → TokenKind} {cs : List Char}
    (h : units.span cs = ([], cs)) : run units kind cs = none := by
  simp [run, h]

theorem run_eq_some {units : Units} {kind : List Char → TokenKind} {cs spelling rest : List Char}
    (h : units.span cs = (spelling, rest)) (hne : spelling ≠ []) :
    run units kind cs = some ⟨kind spelling, spelling, rest⟩ := by
  simp [run, h, hne]

end Rule

end MailMerge.Markup
