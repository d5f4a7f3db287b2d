/-
Tokens that can be spelled in other ways. What is read depends on the kinds of the tokens only, and
what stands around a token on its own spelling only where this is a text; so a token that is no text
may be exchanged for one of the same kind.
-/
import MailMerge.Proofs.Markup.Prefix

namespace MailMerge.Markup

/-! ## Kinds -/

/-- A run with its places is a run without them. -/
theorem Cursor.Yields.scans {c c' : Cursor} {tokens : List Token} (h : c.Yields tokens c') :
    Scans c.mode c.rest (tokens.map (·.kind)) c'.mode c'.rest := by
  induction h with
  | nil => exact .nil
  | cons hstep _ ih =>
    unfold step at hstep
    simp only at hstep
    split at hstep
    · cases hstep
    · split at hstep
      · rename_i x hscan
        cases hstep
        rw [mode_skipLayout, rest_skipLayout] at hscan
        rw [mode_skipLayout] at ih
        exact .cons hscan ih
      · cases hstep
      · cases hstep

namespace Draft

variable {d d' : Draft} {t t' : Token}

/-- Of the place of a token only that of an opening bracket is kept. -/
theorem take?_congr (hkind : t'.kind = t.kind)
    (hposition : t.kind = .openTag → t'.position = t.position) : d.take? t' = d.take? t := by
  obtain ⟨frames, nodes, spot⟩ := d
  obtain ⟨kind, position, spelling⟩ := t
  obtain ⟨kind', position', spelling'⟩ := t'
  simp only at hkind hposition
  subst hkind
  by_cases htag : kind' = .openTag
  · rw [hposition htag]
    cases spot <;> rfl
  · cases kind' with
    | openTag => exact (htag rfl).elim
    | _ => cases spot <;> rfl

theorem push_congr (h : d.push t = .ok d') (hkind : t'.kind = t.kind)
    (hposition : t.kind = .openTag → t'.position = t.position) : d.push t' = .ok d' := by
  obtain ⟨base, hsettle, htake⟩ := push_eq_ok_iff.1 h
  exact push_eq_ok_iff.2 ⟨base, hsettle, by rw [take?_congr hkind hposition, htake]⟩

/-- The token that is read next ends the last one in front of it, and so does the end of a template. -/
theorem endsBefore_of_yields {c final : Cursor} {tokens : List Token} (h : c.Yields tokens final)
    (hmode : c.mode = d.spot.mode) (hpush : d.pushAll tokens = .ok d') (hend : d'.spot.mode = .text) :
    d.spot.EndsBefore c.rest := by
  cases h with
  | nil =>
    cases hpush
    exact Spot.endsBefore_of_text hend _
  | cons hstep _ =>
    obtain ⟨d₁, hpush, -⟩ := pushAll_cons_eq_ok_iff.1 hpush
    obtain ⟨base, hsettle, htake⟩ := push_eq_ok_iff.1 hpush
    obtain ⟨layout, w, hrest, hlayout, hskip, hscan, -, -⟩ := Cursor.step_eq_token_cases hstep
    rw [hmode] at hskip hscan
    rw [hrest]
    rcases settle_cases hsettle with rfl | ⟨-, _, _, hspot⟩
    · exact endsBefore_of_shape htake (Mode.shape_of_scan hscan) hlayout hskip
    · rw [hspot]
      trivial

end Draft

/-! ## What stands in front -/

/-- What was read up to a place is a run of the scanner up to there. -/
theorem Reached.yields {cs rest : List Char} {tokens : List Token} {d : Draft}
    (h : Reached cs rest tokens d) (hrest : d.spot.EndsBefore rest) :
    Cursor.Yields ⟨.text, 0, cs ++ rest⟩ tokens ⟨d.spot.mode, cs.length, rest⟩ := by
  cases h with
  | ended h => exact h.yields rest hrest
  | @text cs w _ _ _ _ h hmode hne hspan hpush =>
    have hfront := h.yields (w ++ rest) (Spot.endsBefore_of_text hmode _)
    have htext := Cursor.yields_token cs.length (by decide) (Mode.scan_text hspan hne)
    rw [hmode] at hfront
    rw [Draft.mode_push hpush, hmode, List.append_assoc, List.length_append]
    exact hfront.trans htext

/-- A bracket has the same opening however it is spelled. -/
theorem TextShape.start {kind : TokenKind} {w : List Char} (h : TextShape kind w)
    (htext : ∀ value, kind ≠ .text value) : ∃ b : Bracket, kind = b.start.2 ∧ b.start.1 <+: w := by
  cases h with
  | opening b _ => exact ⟨b, rfl, List.prefix_append _ _⟩
  | text _ _ => exact (htext _ rfl).elim

section

variable {cs layout layout' w w' rest : List Char} {before after : List Token} {t : Token}
  {d d' : Draft} (htext : ∀ value, t.kind ≠ .text value)
  (hshape : d.spot.mode.Shape t.kind w) (hmode : d.spot.mode ≠ .literal → layout = [])
  (hshape' : d.spot.mode.Shape t.kind w') (hmode' : d.spot.mode ≠ .literal → layout' = [])

include htext hshape hmode hshape' hmode'

/-- A token that is no text may be exchanged for another one of its kind. -/
theorem Reached.exchange (h : Reached cs (layout ++ w ++ rest) before d) :
    Reached cs (layout' ++ w' ++ rest) before d := by
  generalize hcut : layout ++ w ++ rest = more at h
  cases h with
  | ended h => exact .ended h
  | @text cs v _ _ _ _ h htextMode hne hspan hpush =>
    have hmodeText : d.spot.mode = .text := by
      rw [Draft.mode_push hpush, htextMode]
      rfl
    obtain rfl := hmode (by rw [hmodeText]; decide)
    obtain rfl := hmode' (by rw [hmodeText]; decide)
    rw [hmodeText] at hshape hshape'
    obtain ⟨b, hb, tail, rfl⟩ := hshape.start htext
    obtain ⟨b', hb', tail', rfl⟩ := hshape'.start htext
    have hsame : b' = b := by
      have := hb.symm.trans hb'
      cases b <;> cases b' <;> first | rfl | cases this
    subst hsame hcut
    -- Where the text ends depends on the first character of the bracket only.
    refine .text h htextMode hne (Units.span_append_of_head? hspan ?_ ?_) hpush
    · cases b' <;> rfl
    · rw [List.nil_append, List.append_assoc]
      exact span_start _ b'

/-- A template in which a token that is no text is spelled in another way is read to the same
nodes. -/
theorem parse_of_respelled {nodes : List Node} {mode : Mode}
    (hspelled : Node.AllSpelled nodes ((before ++ t :: after).map (·.kind)))
    (hreached : Reached cs (layout ++ w ++ rest) before d)
    (hposition : t.position = cs.length + layout.length) (hpush : d.push t = .ok d')
    (hends : d'.spot.EndsBefore rest)
    (hscans : Scans d'.spot.mode rest (after.map (·.kind)) mode [])
    (hlayout' : ∀ c ∈ layout', isLayout c = true) :
    parse (String.ofList (cs ++ (layout' ++ w') ++ rest)) = .ok nodes := by
  have hplace : t.kind = .openTag → cs.length + layout'.length = t.position := by
    intro htag
    have hmodeText : d.spot.mode ≠ .literal := by
      intro hliteral
      rw [hliteral, htag] at hshape
      cases hshape
    rw [hposition, hmode hmodeText, hmode' hmodeText]
  have hpush' : d.push ⟨t.kind, cs.length + layout'.length, String.ofList w'⟩ = .ok d' :=
    Draft.push_congr hpush rfl hplace
  have hreached' := (hreached.exchange htext hshape hmode hshape' hmode').step_other htext hshape'
    hlayout' hmode' hpush'
  have hfront := (hreached'.yields hends).scans
  obtain ⟨tokens, htokens, hkinds⟩ := (hfront.trans hscans).tokenize
  refine parse_of_allSpelled htokens ?_
  rw [hkinds]
  simpa using hspelled

end

end MailMerge.Markup
