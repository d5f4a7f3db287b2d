/-
The front of a template. Whatever can be pushed at a spot also ends the token in front of it; so a
front of a template that was read up to some draft leads to this draft whatever stands behind it, as
long as that ends its last token. Only plain text is left open at its end, as more of it may always
follow.
-/
import Mathlib.Data.List.Chain
import Mathlib.Data.List.TakeWhile
import MailMerge.Proofs.Markup.Spots

namespace MailMerge.Markup

open MailMerge.Text MailMerge.Number

/-! ## Runs of the scanner with their places -/

/-- The scanner cuts tokens one after the other on the way from one place to another. -/
inductive Cursor.Yields : Cursor → List Token → Cursor → Prop
  | nil {c : Cursor} : Yields c [] c
  | cons {c next final : Cursor} {t : Token} {tokens : List Token} :
    c.step = .token t next → Yields next tokens final → Yields c (t :: tokens) final

namespace Cursor

theorem Yields.trans {c c' c'' : Cursor} {tokens more : List Token} (h : c.Yields tokens c')
    (hmore : c'.Yields more c'') : c.Yields (tokens ++ more) c'' := by
  induction h with
  | nil => exact hmore
  | cons hstep _ ih => exact .cons hstep (ih hmore)

theorem Yields.readTokens {c c' : Cursor} {tokens : List Token} (h : c.Yields tokens c')
    (r : Reader) (hr : r.cursor = c) :
    r.readTokens.1 = tokens ++ ({ r with cursor := c' } : Reader).readTokens.1 ∧
      r.readTokens.2.1 = ({ r with cursor := c' } : Reader).readTokens.2.1 := by
  induction h generalizing r with
  | nil =>
    subst hr
    exact ⟨rfl, rfl⟩
  | @cons c next final t tokens hstep _ ih =>
    subst hr
    obtain ⟨htokens, hfault⟩ := Reader.readTokens_token hstep
    obtain ⟨htokens', hfault'⟩ := ih { r with cursor := next } rfl
    rw [htokens, hfault, htokens', hfault']
    exact ⟨rfl, rfl⟩

/-- A run to the end of a template cuts it into its tokens. -/
theorem Yields.tokenize {source : String} {c : Cursor} {tokens : List Token}
    (h : (start source).Yields tokens c) (hend : c.rest = []) : tokenize source = .ok tokens := by
  have hstep : c.step = .finished c.skipLayout := by
    have hrest : c.skipLayout.rest = [] := by
      rw [rest_skipLayout, hend]
      unfold Mode.skip
      split <;> rfl
    unfold step
    simp only [hrest, if_true]
  obtain ⟨htokens, hfault⟩ := h.readTokens (Reader.new.load source) rfl
  have hrest : ∀ r : Reader, r.cursor = c → r.readTokens.1 = [] ∧ r.readTokens.2.1 = none := by
    rintro r rfl
    rw [Reader.readTokens, hstep]
    exact ⟨rfl, rfl⟩
  obtain ⟨hnil, hnone⟩ := hrest { Reader.new.load source with cursor := c } rfl
  rw [tokenize_eq_ok_iff, htokens, hfault, hnil, hnone]
  exact ⟨List.append_nil _, rfl⟩

/-- One token, behind the layout that may stand in front of it. -/
theorem step_eq_token {mode : Mode} {layout w more : List Char} {kind : TokenKind} (position : Nat)
    (hscan : mode.scan (w ++ more) = .ok ⟨kind, w, more⟩)
    (hlayout : ∀ c ∈ layout, isLayout c = true) (hmode : mode ≠ .literal → layout = [])
    (hw : mode = .literal → ∀ c ∈ w.head?, isLayout c = false) :
    step ⟨mode, position, layout ++ w ++ more⟩ =
      .token ⟨kind, position + layout.length, String.ofList w⟩
        ⟨mode.after kind, position + layout.length + w.length, more⟩ := by
  have hne : w ≠ [] := (Mode.scan_cuts hscan).1
  have hskip : skipLayout ⟨mode, position, layout ++ w ++ more⟩ =
      ⟨mode, position + layout.length, w ++ more⟩ := by
    unfold skipLayout
    split
    · rename_i hliteral
      obtain ⟨c, w, rfl⟩ := List.exists_cons_of_ne_nil hne
      have htake : (layout ++ c :: (w ++ more)).takeWhile isLayout = layout := by
        rw [List.takeWhile_append_of_pos hlayout, List.takeWhile_cons, hw hliteral c rfl]
        simp
      simp [advance, htake]
    · rename_i hliteral
      rw [hmode hliteral]
      rfl
  unfold step
  simp only [hskip]
  rw [if_neg (by simp [hne]), hscan]

/-- One token where no layout is passed over. -/
theorem yields_token {mode : Mode} {w more : List Char} {kind : TokenKind} (position : Nat)
    (hmode : mode ≠ .literal) (hscan : mode.scan (w ++ more) = .ok ⟨kind, w, more⟩) :
    Yields ⟨mode, position, w ++ more⟩ [⟨kind, position, String.ofList w⟩]
      ⟨mode.after kind, position + w.length, more⟩ :=
  .cons (step_eq_token position hscan (List.forall_mem_nil _) (fun _ => rfl)
    fun h => (hmode h).elim) .nil

end Cursor

/-! ## What leads to a draft -/

/-- In front of whatever ends its last token, `cs` is cut into these tokens, and the draft is what
they amount to. -/
structure Leads (cs : List Char) (tokens : List Token) (d : Draft) : Prop where
  pushed : Draft.empty.pushAll tokens = .ok d
  yields : ∀ more, d.spot.EndsBefore more →
    Cursor.Yields ⟨.text, 0, cs ++ more⟩ tokens ⟨d.spot.mode, cs.length, more⟩

theorem leads_nil : Leads [] [] .empty :=
  ⟨rfl, fun _ _ => .nil⟩

section

variable {cs w blanks layout : List Char} {tokens : List Token} {d d₁ d' : Draft}

/-- A token that is no text and that can follow leads on. -/
theorem Leads.push (h : Leads cs tokens d) {kind : TokenKind} (htext : ∀ value, kind ≠ .text value)
    (hshape : d.spot.mode.Shape kind w) (hlayout : ∀ c ∈ layout, isLayout c = true)
    (hmode : d.spot.mode ≠ .literal → layout = [])
    (hpush : d.push ⟨kind, cs.length + layout.length, String.ofList w⟩ = .ok d') :
    Leads (cs ++ (layout ++ w))
      (tokens ++ [⟨kind, cs.length + layout.length, String.ofList w⟩]) d' := by
  refine ⟨Draft.pushAll_concat h.pushed hpush, ?_⟩
  intro more hmore
  obtain ⟨base, hsettle, htake⟩ := Draft.push_eq_ok_iff.1 hpush
  have hbase := Draft.mode_settle hsettle
  have hends := Draft.endsBefore_take? htake htext hmore
  rw [hbase] at hends
  have hscan := Mode.scan_of_shape hshape hends
  have hfront : d.spot.EndsBefore (layout ++ w ++ more) := by
    rcases Draft.settle_cases hsettle with rfl | ⟨-, _, _, hspot⟩
    · exact Draft.endsBefore_of_shape htake hshape hlayout hmode
    · rw [hspot]
      trivial
  have hhead : d.spot.mode = .literal → ∀ c ∈ w.head?, isLayout c = false := by
    intro hliteral
    rw [hliteral] at hshape
    obtain ⟨c, rest, rfl, hc, -⟩ := LiteralShape.head hshape
    rintro _ ⟨⟩
    exact hc
  have hstep := Cursor.step_eq_token cs.length hscan hlayout hmode hhead
  have hyields := (h.yields _ hfront).trans (.cons hstep .nil)
  rw [Draft.mode_push hpush]
  simpa [Nat.add_assoc] using hyields

/-- A text leads on together with the bracket behind it, if it ends there. -/
theorem Leads.text_opening (h : Leads cs tokens d) (hmode : d.spot.mode = .text) (hne : w ≠ [])
    (b : Bracket) (hblanks : ∀ c ∈ blanks, isBlank c = true)
    (hspan : ∀ more, textUnits.span (w ++ (b.start.1 ++ more)) = (w, b.start.1 ++ more))
    (htext : d.push ⟨.text (String.ofList (unescape w)), cs.length, String.ofList w⟩ = .ok d₁)
    (hopening : d₁.push ⟨b.start.2, (cs ++ w).length, String.ofList (b.start.1 ++ blanks)⟩ = .ok d') :
    Leads (cs ++ w ++ (b.start.1 ++ blanks))
      (tokens ++ [⟨.text (String.ofList (unescape w)), cs.length, String.ofList w⟩] ++
        [⟨b.start.2, (cs ++ w).length, String.ofList (b.start.1 ++ blanks)⟩]) d' := by
  refine ⟨Draft.pushAll_concat (Draft.pushAll_concat h.pushed htext) hopening, ?_⟩
  intro more hmore
  have hstart : StartsWord more := by
    obtain ⟨base, -, htake⟩ := Draft.push_eq_ok_iff.1 hopening
    have := Draft.endsBefore_take? htake (by cases b <;> simp [Bracket.start]) hmore
    cases b <;> exact this
  have hfront := h.yields (w ++ (b.start.1 ++ (blanks ++ more))) (Spot.endsBefore_of_text hmode _)
  have hfirst := Cursor.yields_token cs.length (by decide)
    (Mode.scan_text (hspan (blanks ++ more)) hne)
  have hsecond := Cursor.yields_token (cs ++ w).length (by decide) (b.scan_opening hblanks hstart)
  rw [Draft.mode_push hopening, Draft.mode_push htext, hmode]
  rw [hmode] at hfront
  show Cursor.Yields _ _ ⟨Mode.text.after b.start.2, _, _⟩
  simp only [List.length_append, List.append_assoc] at hfirst hsecond ⊢
  simpa [Nat.add_assoc] using hfront.trans (hfirst.trans hsecond)

end

/-! ## What a template is read up to -/

/-- `Reached cs rest tokens d`: the tokens of `cs`, which amount to the draft, were cut in front of
`rest`. A text at the end of `cs` is held back, as it depends on `rest` that it ends there. -/
inductive Reached : List Char → List Char → List Token → Draft → Prop
  | ended {cs rest : List Char} {tokens : List Token} {d : Draft} :
    Leads cs tokens d → Reached cs rest tokens d
  | text {cs w rest : List Char} {tokens : List Token} {d d' : Draft} :
    Leads cs tokens d → d.spot.mode = .text → w ≠ [] → textUnits.span (w ++ rest) = (w, rest) →
      d.push ⟨.text (String.ofList (unescape w)), cs.length, String.ofList w⟩ = .ok d' →
        Reached (cs ++ w) rest
          (tokens ++ [⟨.text (String.ofList (unescape w)), cs.length, String.ofList w⟩]) d'

/-- Only where plain text is read a text is held back. -/
theorem Reached.leads {cs rest : List Char} {tokens : List Token} {d : Draft}
    (h : Reached cs rest tokens d) (hspot : d.spot ≠ .content) : Leads cs tokens d := by
  cases h with
  | ended h => exact h
  | text _ _ _ _ hpush =>
    obtain ⟨base, -, htake⟩ := Draft.push_eq_ok_iff.1 hpush
    obtain ⟨hcontent, rfl⟩ := Draft.take?_text htake rfl
    exact (hspot hcontent).elim

/-- Layout is passed over where a literal is looked for, and nowhere else. -/
theorem Cursor.skipLayout_cases (c : Cursor) :
    ∃ layout, c.rest = layout ++ c.skipLayout.rest ∧ (∀ d ∈ layout, isLayout d = true) ∧
      (c.mode ≠ .literal → layout = []) ∧
      c.skipLayout = ⟨c.mode, c.position + layout.length, c.skipLayout.rest⟩ := by
  have hrest := c.rest_skipLayout
  unfold Mode.skip at hrest
  by_cases hliteral : c.mode = .literal
  · rw [if_pos hliteral] at hrest
    refine ⟨c.rest.takeWhile isLayout, ?_, fun _ => List.mem_takeWhile_imp,
      fun h => (h hliteral).elim, ?_⟩
    · rw [hrest, List.takeWhile_append_dropWhile]
    · unfold skipLayout
      rw [if_pos hliteral]
      rfl
  · rw [if_neg hliteral] at hrest
    refine ⟨[], by rw [hrest, List.nil_append], by simp, fun _ => rfl, ?_⟩
    unfold skipLayout
    rw [if_neg hliteral]
    rfl

/-- What one step of the scanner finds: layout, and a token behind it. -/
theorem Cursor.step_eq_token_cases {c next : Cursor} {t : Token} (h : c.step = .token t next) :
    ∃ layout w, c.rest = layout ++ w ++ next.rest ∧ (∀ d ∈ layout, isLayout d = true) ∧
      (c.mode ≠ .literal → layout = []) ∧ c.mode.scan (w ++ next.rest) = .ok ⟨t.kind, w, next.rest⟩ ∧
      t = ⟨t.kind, c.position + layout.length, String.ofList w⟩ ∧
      next = ⟨c.mode.after t.kind, c.position + layout.length + w.length, next.rest⟩ := by
  obtain ⟨layout, hrest, hlayout, hmode, hskip⟩ := c.skipLayout_cases
  unfold step at h
  rw [hskip] at h
  simp only at h
  split at h
  · cases h
  · split at h
    · rename_i x hscan
      have hcut := (Mode.scan_cuts hscan).2
      cases h
      refine ⟨layout, x.spelling, ?_, hlayout, hmode, ?_, rfl, rfl⟩
      · rw [List.append_assoc, hcut, ← hrest]
      · rw [hcut, hscan]
    · cases h
    · cases h

/-- The scanner finishes where nothing is left. -/
theorem Cursor.rest_of_finished {c final : Cursor} (h : c.step = .finished final) :
    c.skipLayout.rest = [] := by
  unfold step at h
  simp only at h
  split at h
  · assumption
  · split at h <;> cases h

section

variable {cs w layout more : List Char} {tokens : List Token} {d d' : Draft}

/-- One more token that is a text. Behind a text that was held back there is no other one. -/
theorem Reached.step_text (h : Reached cs (w ++ more) tokens d) (hmode : d.spot.mode = .text)
    (hne : w ≠ []) (hspan : textUnits.span (w ++ more) = (w, more))
    (hpush : d.push ⟨.text (String.ofList (unescape w)), cs.length, String.ofList w⟩ = .ok d') :
    Reached (cs ++ w) more
      (tokens ++ [⟨.text (String.ofList (unescape w)), cs.length, String.ofList w⟩]) d' := by
  generalize hrest : w ++ more = rest at h hspan
  cases h with
  | ended h =>
    subst hrest
    exact .text h hmode hne hspan hpush
  | @text _ w' _ _ _ _ _ _ _ hspan' _ =>
    have hnone := textUnits.span_span (w' ++ rest)
    rw [hspan', hspan] at hnone
    exact (hne (congrArg Prod.fst hnone)).elim

/-- One more token that is no text. The bracket behind a text that was held back ends this text
whatever stands behind it. -/
theorem Reached.step_other {kind : TokenKind} (h : Reached cs (layout ++ w ++ more) tokens d)
    (htext : ∀ value, kind ≠ .text value) (hshape : d.spot.mode.Shape kind w)
    (hlayout : ∀ c ∈ layout, isLayout c = true) (hmode : d.spot.mode ≠ .literal → layout = [])
    (hpush : d.push ⟨kind, cs.length + layout.length, String.ofList w⟩ = .ok d') :
    Reached (cs ++ (layout ++ w)) more
      (tokens ++ [⟨kind, cs.length + layout.length, String.ofList w⟩]) d' := by
  generalize hrest : layout ++ w ++ more = rest at h
  cases h with
  | ended h => exact .ended (h.push htext hshape hlayout hmode hpush)
  | @text cs w' _ tokens base _ h hbase hne' hspan' hpush' =>
    have htextMode : d.spot.mode = .text := by
      rw [Draft.mode_push hpush', hbase]
      rfl
    obtain rfl := hmode (by rw [htextMode]; decide)
    rw [htextMode] at hshape
    cases hshape with
    | opening b hblanks =>
      have hends : ∀ more,
          textUnits.span (w' ++ (b.start.1 ++ more)) = (w', b.start.1 ++ more) := by
        intro more
        refine Units.span_append_of_head? hspan' ?_ (span_start more b)
        rw [← hrest]
        cases b <;> rfl
      exact .ended (h.text_opening hbase hne' b hblanks hends hpush' hpush)
    | text _ _ => exact (htext _ rfl).elim

/-- One more token. -/
theorem Reached.step {rest : List Char} {t : Token} {next : Cursor} (h : Reached cs rest tokens d)
    (hstep : Cursor.step ⟨d.spot.mode, cs.length, rest⟩ = .token t next)
    (hpush : d.push t = .ok d') :
    ∃ cs', Reached cs' next.rest (tokens ++ [t]) d' ∧ cs' ++ next.rest = cs ++ rest ∧
      next = ⟨d'.spot.mode, cs'.length, next.rest⟩ := by
  obtain ⟨layout, w, hrest, hlayout, hmode, hscan, ht, hnext⟩ := Cursor.step_eq_token_cases hstep
  replace hmode : d.spot.mode ≠ .literal → layout = [] := hmode
  replace hrest : rest = layout ++ w ++ next.rest := hrest
  subst hrest
  have hshape : d.spot.mode.Shape t.kind w := Mode.shape_of_scan hscan
  have hplace : next = ⟨d'.spot.mode, (cs ++ (layout ++ w)).length, next.rest⟩ := by
    rw [Draft.mode_push hpush]
    exact hnext.trans (by simp [Nat.add_assoc])
  refine ⟨cs ++ (layout ++ w), ?_, by simp only [List.append_assoc], hplace⟩
  by_cases htext : ∃ value, t.kind = .text value
  · obtain ⟨value, hkind⟩ := htext
    rw [hkind] at hshape
    have htextMode := Mode.eq_text_of_shape hshape
    obtain rfl := hmode (by rw [htextMode]; decide)
    have hscan : Mode.text.scan (w ++ next.rest) = .ok ⟨t.kind, w, next.rest⟩ := by
      rw [← htextMode]
      exact hscan
    obtain ⟨hspan, hvalue⟩ := span_of_scan_text hscan hkind
    rw [ht, hkind, hvalue] at hpush ⊢
    exact h.step_text htextMode (Mode.scan_cuts hscan).1 hspan hpush
  · rw [ht] at hpush ⊢
    exact h.step_other (fun value hkind => htext ⟨value, hkind⟩) hshape hlayout hmode hpush

end

/-- More tokens. -/
theorem Reached.run {c c' : Cursor} {more : List Token} (hyields : c.Yields more c')
    {cs : List Char} {tokens : List Token} {d d' : Draft} (h : Reached cs c.rest tokens d)
    (hc : c = ⟨d.spot.mode, cs.length, c.rest⟩) (hpush : d.pushAll more = .ok d') :
    ∃ cs', Reached cs' c'.rest (tokens ++ more) d' ∧ cs' ++ c'.rest = cs ++ c.rest ∧
      c' = ⟨d'.spot.mode, cs'.length, c'.rest⟩ := by
  induction hyields generalizing cs tokens d with
  | nil =>
    cases hpush
    rw [List.append_nil]
    exact ⟨cs, h, rfl, hc⟩
  | @cons c next final t more hstep _ ih =>
    obtain ⟨d₁, hd, hpush⟩ := Draft.pushAll_cons_eq_ok_iff.1 hpush
    rw [hc] at hstep
    obtain ⟨cs₁, h₁, hcs₁, hnext⟩ := h.step hstep hd
    obtain ⟨cs', h', hcs', hfinal⟩ := ih h₁ hnext hpush
    rw [List.append_assoc] at h'
    exact ⟨cs', h', hcs'.trans hcs₁, hfinal⟩

/-- Every template is read up to each place at which its tokens amount to a draft. -/
theorem reached_of_yields {source : String} {tokens : List Token} {c : Cursor} {d : Draft}
    (hyields : (Cursor.start source).Yields tokens c) (hpush : Draft.empty.pushAll tokens = .ok d) :
    ∃ cs, Reached cs c.rest tokens d ∧ cs ++ c.rest = source.toList ∧
      c = ⟨d.spot.mode, cs.length, c.rest⟩ :=
  Reached.run hyields (.ended leads_nil) rfl hpush

/-- The tokens of a reader end where the scanner finishes or fails. -/
theorem yields_readTokens (r : Reader) :
    ∃ c, r.cursor.Yields r.readTokens.1 c ∧
      match r.readTokens.2.1 with
      | none => ∃ final, c.step = .finished final
      | some e => ∃ f final, c.step = .fault f final ∧ e = f.placed final.position := by
  fun_induction Reader.readTokens r with
  | case1 r t cursor hstep tokens fault r' hr' ih =>
    obtain ⟨c, hyields, hend⟩ := ih
    rw [hr'] at hyields hend
    exact ⟨c, .cons hstep hyields, hend⟩
  | case2 r cursor hstep => exact ⟨r.cursor, .nil, cursor, hstep⟩
  | case3 r f cursor hstep => exact ⟨r.cursor, .nil, f, cursor, hstep, rfl⟩

/-- The tokens of a template up to its end or to the first fault, whatever the reader read before. -/
theorem yields_scan (r : Reader) (source : String) :
    ∃ c, (Cursor.start source).Yields (r.scan source).1 c ∧
      match (r.tokenize source).1 with
      | .ok tokens => tokens = (r.scan source).1 ∧ ∃ final, c.step = .finished final
      | .error e => ∃ f final, c.step = .fault f final ∧
          e = (f.placed final.position).report source := by
  obtain ⟨c, hyields, hend⟩ := yields_readTokens (r.load source)
  refine ⟨c, hyields, ?_⟩
  unfold Reader.tokenize Reader.scan
  generalize (r.load source).readTokens = found at hend ⊢
  obtain ⟨tokens, _ | e, r'⟩ := found
  · exact ⟨rfl, hend⟩
  · obtain ⟨f, final, hstep, rfl⟩ := hend
    exact ⟨f, final, hstep, rfl⟩

/-- The tokens of a template lead up to a place at which nothing is left. -/
theorem yields_of_tokenize {source : String} {tokens : List Token}
    (h : tokenize source = .ok tokens) :
    ∃ c final, (Cursor.start source).Yields tokens c ∧ c.step = .finished final := by
  obtain ⟨hread, hfault⟩ := tokenize_eq_ok_iff.1 h
  obtain ⟨c, hyields, hend⟩ := yields_readTokens (Reader.new.load source)
  rw [hfault] at hend
  rw [hread] at hyields
  obtain ⟨final, hstep⟩ := hend
  exact ⟨c, final, hyields, hstep⟩

/-- A template that is read up to its end between brackets. -/
theorem reached_of_tokenize {source : String} {tokens : List Token} {d : Draft}
    (h : tokenize source = .ok tokens) (hpush : Draft.empty.pushAll tokens = .ok d)
    (hmode : d.spot.mode = .text) : Reached source.toList [] tokens d := by
  obtain ⟨c, final, hyields, hstep⟩ := yields_of_tokenize h
  obtain ⟨cs, hreached, hsource, hc⟩ := reached_of_yields hyields hpush
  have hliteral : c.mode ≠ .literal := by
    rw [show c.mode = .text by rw [hc, hmode]]
    decide
  have hrest := c.rest_of_finished hstep
  unfold Cursor.skipLayout at hrest
  rw [if_neg hliteral] at hrest
  rw [hrest, List.append_nil] at hsource
  rwa [hrest, hsource] at hreached

/-- Why a template is refused: a token cannot follow, or the template cannot end, or the scanner
fails where all tokens in front could follow. -/
theorem refusal_of_parse {source : String} {e : ParseError} (h : parse source = .error e) :
    ∃ tokens c r, (Cursor.start source).Yields tokens c ∧ e = r.report source ∧
      (Draft.empty.pushAll tokens = .error r ∨
        ∃ d, Draft.empty.pushAll tokens = .ok d ∧
          ((∃ final, c.step = .finished final) ∧ d.finish source = .error r ∨
            ∃ f final, c.step = .fault f final ∧ r = f.placed final.position)) := by
  obtain ⟨c, hyields, hend⟩ := yields_readTokens (Reader.new.load source)
  rw [parse_eq] at h
  cases hpush : Draft.empty.pushAll (Reader.new.load source).readTokens.1 with
  | error r =>
    rw [hpush] at h
    cases h
    exact ⟨_, c, r, hyields, rfl, .inl hpush⟩
  | ok d =>
    rw [hpush] at h
    cases hfault : (Reader.new.load source).readTokens.2.1 with
    | none =>
      rw [hfault] at h hend
      replace h : (d.finish source).mapError (Refusal.report source) = .error e := h
      cases hfinish : d.finish source with
      | ok nodes =>
        rw [hfinish] at h
        cases h
      | error r =>
        rw [hfinish] at h
        cases h
        exact ⟨_, c, r, hyields, rfl, .inr ⟨d, hpush, .inl ⟨hend, hfinish⟩⟩⟩
    | some r =>
      rw [hfault] at h hend
      cases h
      exact ⟨_, c, r, hyields, rfl, .inr ⟨d, hpush, .inr hend⟩⟩

/-- The scanner's fault is reported if all tokens in front of it could follow. -/
theorem parse_of_fault {source : String} {tokens : List Token} {c final : Cursor} {d : Draft}
    {f : ScanFault} (hyields : (Cursor.start source).Yields tokens c)
    (hpush : Draft.empty.pushAll tokens = .ok d) (hstep : c.step = .fault f final) :
    parse source = .error ((f.placed final.position).report source) := by
  obtain ⟨htokens, hfault⟩ := hyields.readTokens (Reader.new.load source) rfl
  obtain ⟨hnil, hplaced⟩ :=
    @Reader.readTokens_fault { Reader.new.load source with cursor := c } f final hstep
  rw [parse_eq, htokens, hfault, hnil, hplaced, List.append_nil, hpush]
  rfl

/-! ## Along a run -/

namespace Cursor

variable {c c' c'' next : Cursor} {t : Token} {tokens more : List Token}

theorem Yields.split (h : c.Yields (tokens ++ more) c'') :
    ∃ c', c.Yields tokens c' ∧ c'.Yields more c'' := by
  induction tokens generalizing c with
  | nil => exact ⟨c, .nil, h⟩
  | cons t tokens ih =>
    cases h with
    | cons hstep hrest =>
      obtain ⟨c', htokens, hmore⟩ := ih hrest
      exact ⟨c', .cons hstep htokens, hmore⟩

/-- The last token of a run is cut where the ones in front of it lead to. -/
theorem Yields.last (h : c.Yields (tokens ++ [t]) c'') :
    ∃ c', c.Yields tokens c' ∧ c'.step = .token t c'' := by
  obtain ⟨c', htokens, hlast⟩ := h.split
  cases hlast with
  | cons hstep hnil =>
    cases hnil
    exact ⟨c', htokens, hstep⟩

/-- Every token of a run is cut at some place on the way. -/
theorem Yields.step_of_mem (h : c.Yields tokens c') (ht : t ∈ tokens) :
    ∃ front c₁ c₂, c.Yields front c₁ ∧ c₁.step = .token t c₂ := by
  obtain ⟨front, back, rfl⟩ := List.append_of_mem ht
  obtain ⟨c₁, hfront, hback⟩ := h.split
  cases hback with
  | cons hstep _ => exact ⟨front, c₁, _, hfront, hstep⟩

/-- What holds of every two steps that follow each other holds along the tokens. -/
theorem Yields.isChain {R : Token → Token → Prop} (h : c.Yields tokens c')
    (hR : ∀ front c₁ c₂ c₃ t t', c.Yields front c₁ → c₁.step = .token t c₂ →
      c₂.step = .token t' c₃ → R t t') : tokens.IsChain R := by
  induction h with
  | nil => exact .nil
  | cons hstep hrest ih =>
    have hchain := ih fun front c₁ c₂ c₃ t t' hfront =>
      hR _ c₁ c₂ c₃ t t' (.cons hstep hfront)
    cases hrest with
    | nil => exact .singleton _
    | cons hnext _ => exact .cons_cons (hR [] _ _ _ _ _ .nil hstep hnext) hchain

/-- A token starts where the layout in front of it ends, and the scanner goes on behind it. -/
theorem position_of_step (h : c.step = .token t next) :
    t.position = c.skipLayout.position ∧ next.position = t.position + t.spelling.length := by
  unfold step at h
  simp only at h
  split at h
  · cases h
  · split at h
    · cases h
      exact ⟨rfl, by rw [String.length_ofList]⟩
    · cases h
    · cases h

/-- What is cut at a place has the shape of its kind. -/
theorem shape_of_step (h : c.step = .token t next) : c.mode.Shape t.kind t.spelling.toList := by
  obtain ⟨_, w, -, -, -, hscan, ht, -⟩ := step_eq_token_cases h
  rw [ht, String.toList_ofList]
  exact Mode.shape_of_scan hscan

/-- The mode behind a token. -/
theorem mode_of_step (h : c.step = .token t next) : next.mode = c.mode.after t.kind := by
  obtain ⟨_, _, -, -, -, -, -, hnext⟩ := step_eq_token_cases h
  rw [hnext]

/-- What one step finds in a bracket. -/
theorem step_bracket {b : Bracket} (hstep : c.step = .token t next) (hmode : c.mode = b.mode) :
    c.rest = t.spelling.toList ++ next.rest ∧ b.Shape t.kind t.spelling.toList ∧
      next.mode = b.mode.after t.kind ∧
      b.mode.scan c.rest = .ok ⟨t.kind, t.spelling.toList, next.rest⟩ := by
  obtain ⟨layout, w, hrest, -, hskips, hscan, ht, hnext⟩ := step_eq_token_cases hstep
  obtain rfl := hskips (by rw [hmode]; exact b.mode_ne_literal)
  have hw : t.spelling.toList = w := by rw [ht, String.toList_ofList]
  rw [List.nil_append] at hrest
  rw [hmode] at hscan hnext
  rw [hw, hrest]
  exact ⟨rfl, Bracket.shape_of_scan hscan, congrArg Cursor.mode hnext, hscan⟩

/-- A literal is looked for behind a comparator only. -/
theorem operator_of_step (h : c.step = .token t next) (hmode : next.mode = .literal) :
    ∃ op, t.kind = .operator op := by
  have hshape := shape_of_step h
  have hafter : c.mode.after t.kind = .literal := by rw [← mode_of_step h, hmode]
  generalize t.kind = kind at hshape hafter
  cases kind with
  | operator op => exact ⟨op, rfl⟩
  | openExpansion | openTag | closeExpansion | closeTag | literal _ => cases hafter
  | _ =>
    -- No other token stands where a literal is looked for.
    rw [show c.mode = .literal from hafter] at hshape
    cases hshape

end Cursor

end MailMerge.Markup
