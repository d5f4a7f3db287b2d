/-
One template behind another. Where a template ends no bracket is open, so what follows is read as if
it stood alone. Only a text at the end goes on into a text at the start of what follows; and a brace
there may make an opening bracket together with the next character, which has to be ruled out.
-/
import Mathlib.Data.List.Basic
import MailMerge.Proofs.Markup.Completeness
import MailMerge.Proofs.Markup.Continuation
import MailMerge.Proofs.Markup.Prefix

namespace MailMerge.Markup

/-! ## Nodes -/

/-- Nodes one behind the other. A text at the end of the first ones and a text at the start of the
others become one. -/
def joinNodes : List Node → List Node → List Node
  | [], more => more
  | [.text value], .text value' :: more => .text (value ++ value') :: more
  | node :: nodes, more => node :: joinNodes nodes more

theorem joinNodes_text (nodes more : List Node) (value value' : String) :
    joinNodes (nodes ++ [.text value]) (.text value' :: more) =
      nodes ++ .text (value ++ value') :: more := by
  induction nodes with
  | nil => rfl
  | cons node nodes ih =>
    rw [List.cons_append, joinNodes, ih]
    · rfl
    · simp

theorem joinNodes_eq_append {nodes more : List Node}
    (h : ∀ front value value' rest, nodes = front ++ [.text value] → more ≠ .text value' :: rest) :
    joinNodes nodes more = nodes ++ more := by
  fun_induction joinNodes nodes more with
  | case1 more => rfl
  | case2 value value' more => exact (h [] value value' more rfl rfl).elim
  | case3 node nodes more _ ih =>
    rw [ih, List.cons_append]
    intro front value value' rest hnodes
    exact h (node :: front) value value' rest (by rw [hnodes, List.cons_append])

/-! ## The end of a template -/

theorem Cursor.Yields.rest_eq {c c' : Cursor} {tokens : List Token} (h : c.Yields tokens c') :
    ∃ front, c.rest = front ++ c'.rest := by
  induction h with
  | nil => exact ⟨[], rfl⟩
  | cons hstep _ ih =>
    obtain ⟨layout, w, hrest, -⟩ := step_eq_token_cases hstep
    obtain ⟨front, hfront⟩ := ih
    exact ⟨layout ++ w ++ front, by rw [hrest, hfront, List.append_assoc (layout ++ w)]⟩

/-- Only closing brackets, which end in a brace, lead back to plain text. -/
theorem Mode.closing_of_shape {mode : Mode} {kind : TokenKind} {w : List Char}
    (h : mode.Shape kind w) (hafter : mode.after kind = .text)
    (htext : ∀ value, kind ≠ .text value) :
    (kind = .closeExpansion ∨ kind = .closeTag) ∧ ∃ front, w = front ++ ['}'] := by
  have hbracket : ∀ b : Bracket, b.Shape kind w → b.mode.after kind = .text →
      kind = b.close.2 ∧ ∃ front, w = front ++ ['}'] := by
    intro b h hafter
    cases h with
    | @closing blanks _ =>
      refine ⟨rfl, blanks ++ b.close.1.dropLast, ?_⟩
      rw [List.append_assoc]
      cases b <;> rfl
    | word _ _ =>
      rcases b.word_cases w with ⟨_, hword⟩ | ⟨_, hword⟩ <;> rw [hword] at hafter <;>
        cases b <;> cases hafter
    | blank _ _ | quoted _ _ | dot | atSign | operator _ _ => cases b <;> cases hafter
  cases mode with
  | text =>
    cases h with
    | opening b _ => cases b <;> cases hafter
    | text _ _ => exact (htext _ rfl).elim
  | expansion =>
    obtain ⟨hkind, hw⟩ := hbracket .expansion h hafter
    exact ⟨.inl hkind, hw⟩
  | tag =>
    obtain ⟨hkind, hw⟩ := hbracket .tag h hafter
    exact ⟨.inr hkind, hw⟩
  | literal => cases h <;> cases hafter

/-- In plain text a front that leads on whatever follows ends in a closing bracket. -/
theorem Leads.last_cases {cs : List Char} {tokens : List Token} {d : Draft} (h : Leads cs tokens d)
    (hmode : d.spot.mode = .text) :
    tokens = [] ∧ cs = [] ∨ ∃ front t before, tokens = front ++ [t] ∧
      (t.kind = .closeExpansion ∨ t.kind = .closeTag) ∧ cs = before ++ ['}'] := by
  have hyields := h.yields ['x'] (Spot.endsBefore_of_text hmode _)
  rw [hmode] at hyields
  generalize hfinal : (⟨.text, cs.length, ['x']⟩ : Cursor) = final at hyields
  rcases List.eq_nil_or_concat' tokens with rfl | ⟨front, t, rfl⟩
  · cases hyields
    exact .inl ⟨rfl, List.length_eq_zero_iff.1 (congrArg Cursor.position hfinal)⟩
  · refine .inr ?_
    obtain ⟨c, hfront, hlast⟩ := hyields.split
    obtain ⟨before, hbefore⟩ := hfront.rest_eq
    cases hlast with
    | cons hstep hnil =>
      cases hnil
      subst hfinal
      obtain ⟨layout, w, hrest, -, -, hscan, -, hnext⟩ := Cursor.step_eq_token_cases hstep
      have hafter : c.mode.after t.kind = .text := (congrArg Cursor.mode hnext).symm
      have htext : ∀ value, t.kind ≠ .text value := by
        intro value hkind
        -- A text would go on into what follows.
        have hmode : c.mode = .text := by rwa [hkind] at hafter
        rw [hmode] at hscan
        have hspan := textUnits.span_span (w ++ ['x'])
        rw [(span_of_scan_text hscan hkind).1] at hspan
        cases hspan
      obtain ⟨hkind, w, rfl⟩ := Mode.closing_of_shape (Mode.shape_of_scan hscan) hafter htext
      refine ⟨front, t, before ++ layout ++ w, rfl, hkind, ?_⟩
      rw [hrest] at hbefore
      exact List.append_cancel_right (hbefore.trans (by simp))

theorem Leads.ends_closed {cs : List Char} {tokens : List Token} {d : Draft} (h : Leads cs tokens d)
    (hmode : d.spot.mode = .text) : cs = [] ∨ ∃ before, cs = before ++ ['}'] := by
  rcases h.last_cases hmode with ⟨-, hcs⟩ | ⟨_, _, before, -, -, hcs⟩
  · exact .inl hcs
  · exact .inr ⟨before, hcs⟩

/-! ## The seam -/

theorem endsUnescaped_append {c d : Char} {before w : List Char} (hd : d ≠ '\\') (hw : w ≠ []) :
    endsUnescaped c (before ++ d :: w) = endsUnescaped c w := by
  fun_induction endsUnescaped c before with
  | case1 => exact endsUnescaped_cons hd hw
  | case2 e =>
    by_cases he : e = '\\'
    · rw [he]
      rfl
    · rw [List.singleton_append, endsUnescaped_cons he (by simp), endsUnescaped_cons hd hw]
  | case3 e cs ih => exact ih
  | case4 e cs hne hescape ih =>
    obtain ⟨e', cs, rfl⟩ := List.exists_cons_of_ne_nil hne
    have he : e ≠ '\\' := fun he => hescape e' cs he rfl
    rw [List.cons_append, endsUnescaped_cons he (by simp), ih]

/-- Where the two texts meet there is no brace that opens a bracket with what follows. -/
def NoBracketBetween (cs more : List Char) : Prop :=
  endsUnescaped '{' cs = true → ∀ c ∈ more.head?, c ≠ '{' ∧ c ≠ '@'

/-- A text at the end goes on with the plain text of what follows. -/
theorem span_seam {cs w more : List Char} (hspells : textUnits.Spells w) (hne : w ≠ [])
    (hcs : cs = [] ∨ ∃ before, cs = before ++ ['}']) (h : NoBracketBetween (cs ++ w) more) :
    textUnits.span (w ++ more) = (w ++ (textUnits.span more).1, (textUnits.span more).2) := by
  refine hspells.span_append fun c hc _ => ?_
  by_cases hbrace : c = '{'
  · subst hbrace
    have hends : endsUnescaped '{' (cs ++ w) = true := by
      rcases hcs with rfl | ⟨before, rfl⟩
      · exact hc
      · rw [List.append_assoc, List.singleton_append, endsUnescaped_append (by decide) hne]
        exact hc
    have hhead := h hends
    cases more with
    | nil => rfl
    | cons c more =>
      obtain ⟨hbrace, hat⟩ := hhead c rfl
      simp [textUnits, hbrace, hat]
  · simp [textUnits, hbrace]

/-- Where a run of units ends the escapes are resolved on both sides alone. -/
theorem Units.Spells.unescape_append {u : Units} {w : List Char} (h : u.Spells w)
    (more : List Char) : unescape (w ++ more) = unescape w ++ unescape more := by
  have hspan : ∀ cs,
      unescape ((u.span cs).1 ++ more) = unescape (u.span cs).1 ++ unescape more := by
    intro cs
    fun_induction Units.span u cs with
    | case1 => rfl
    | case2 c rest _ run ih => simp [unescape, run, ih]
    | case3 => rfl
    | case4 c rest hplain hc run ih =>
      rw [List.cons_append, unescape_cons hc.1, unescape_cons hc.1, ih]
      rfl
    | case5 => rfl
  have := hspan w
  rwa [show u.span w = (w, []) from h] at this

/-! ## Reading on -/

/-- What is read when a template is read, before faults are reported. -/
def readSource (source : String) : Except Refusal (List Node) :=
  (⟨source, .start source, .empty⟩ : Reader).readNodes.1

theorem parse_eq_readSource (source : String) :
    parse source = (readSource source).mapError (Refusal.report source) := rfl

/-- Tokens that amount to a draft may be left out in front of it. -/
theorem Cursor.Yields.readNodes {c c' : Cursor} {tokens : List Token} (h : c.Yields tokens c')
    {d d' : Draft} (hpush : d.pushAll tokens = .ok d') (source : String) :
    (⟨source, c, d⟩ : Reader).readNodes.1 = (⟨source, c', d'⟩ : Reader).readNodes.1 := by
  induction h generalizing d with
  | nil =>
    cases hpush
    rfl
  | cons hstep _ ih =>
    obtain ⟨d₁, hd₁, hpush⟩ := Draft.pushAll_cons_eq_ok_iff.1 hpush
    rw [Reader.readNodes_token hstep, hd₁]
    exact ih hpush

/-- With no block open it does not matter whether the last tag has taken effect. -/
theorem readNodes_of_settle {d : Draft} {nodes : List Node}
    (h : d.settle = .ok ⟨[], nodes, .content⟩) (source : String) (c : Cursor) :
    (⟨source, c, d⟩ : Reader).readNodes.1 =
      (⟨source, c, ⟨[], nodes, .content⟩⟩ : Reader).readNodes.1 := by
  cases hstep : c.step with
  | token t next =>
    rw [Reader.readNodes_token hstep, Reader.readNodes_token hstep]
    show d.push t >>= _ = (⟨[], nodes, .content⟩ : Draft).push t >>= _
    rw [Draft.push_of_settle h rfl]
  | finished final =>
    rw [Reader.readNodes_finished hstep, Reader.readNodes_finished hstep]
    show d.finish source = (⟨[], nodes, .content⟩ : Draft).finish source
    have hfinish := Draft.finish_of_settle h source
    simp at hfinish
    rw [hfinish]
    rfl
  | fault f final => rw [Reader.readNodes_fault hstep, Reader.readNodes_fault hstep]

theorem Draft.settle_of_finish {d : Draft} {source : String} {nodes : List Node}
    (h : d.finish source = .ok nodes) : d.settle = .ok ⟨[], nodes.reverse, .content⟩ := by
  have hclose : ∀ {base : Draft}, base.close source = .ok nodes →
      base.frames = [] ∧ base.nodes = nodes.reverse := by
    intro base h
    unfold close at h
    split at h
    · cases h
      exact ⟨‹_›, (List.reverse_reverse _).symm⟩
    · cases h
  obtain ⟨frames, nodes', spot⟩ := d
  rcases spot with _ | _ | _ | ⟨opened, tag | kind⟩
  case content =>
    obtain ⟨rfl, rfl⟩ := @hclose ⟨frames, nodes', .content⟩ h
    rfl
  case pending.closes =>
    cases frames with
    | nil => cases h
    | cons frame outer =>
      unfold finish settle at h
      unfold settle
      simp only at h ⊢
      split at h
      · rename_i hkind
        rw [if_pos hkind]
        obtain ⟨rfl, hnodes⟩ :=
          @hclose ⟨outer, .block frame.tag nodes'.reverse :: frame.before, .content⟩ h
        rw [← hnodes]
      · cases h
  all_goals cases h

/-- What a template that can be read is read to. -/
theorem reached_of_parse {source : String} {nodes : List Node} (h : parse source = .ok nodes) :
    ∃ tokens d, tokenize source = .ok tokens ∧ Reached source.toList [] tokens d ∧
      Draft.empty.pushAll tokens = .ok d ∧ d.settle = .ok ⟨[], nodes.reverse, .content⟩ := by
  obtain ⟨tokens, htokens, hnodes⟩ := tokenize_of_parse h
  unfold nodesOf at hnodes
  cases hpush : Draft.empty.pushAll tokens with
  | error e =>
    rw [hpush] at hnodes
    cases hnodes
  | ok d =>
    rw [hpush] at hnodes
    have hsettle := Draft.settle_of_finish hnodes
    have hmode : d.spot.mode = .text := (Draft.mode_settle hsettle).symm
    exact ⟨tokens, d, htokens, reached_of_tokenize htokens hpush hmode, hpush, hsettle⟩

/-! ## One template behind another -/

theorem Node.AllSpelled.last_text {nodes : List Node} {value : String} {kinds : List TokenKind}
    (h : AllSpelled (nodes ++ [.text value]) kinds) : ∃ front, kinds = front ++ [.text value] := by
  induction nodes generalizing kinds with
  | nil =>
    rw [List.nil_append, AllSpelled] at h
    obtain ⟨first, rest, hfirst, hrest, rfl⟩ := h
    rw [AllSpelled] at hrest
    rw [Node.Spelled] at hfirst
    exact ⟨[], by rw [hfirst, hrest]; rfl⟩
  | cons node nodes ih =>
    rw [List.cons_append, AllSpelled] at h
    obtain ⟨first, rest, -, hrest, rfl⟩ := h
    obtain ⟨front, rfl⟩ := ih hrest
    exact ⟨first ++ front, (List.append_assoc ..).symm⟩

/-- A template whose last node is a text ends in the token of a text. -/
theorem last_token_of_parse {source : String} {nodes : List Node} {tokens : List Token}
    {value : String} (h : parse source = .ok (nodes ++ [.text value]))
    (htokens : tokenize source = .ok tokens) :
    ∃ front t, tokens = front ++ [t] ∧ t.kind = .text value := by
  obtain ⟨tokens', htokens', hspelled⟩ := allSpelled_of_parse h
  obtain rfl : tokens' = tokens := Except.ok.inj (htokens'.symm.trans htokens)
  obtain ⟨kinds, hkinds⟩ := hspelled.last_text
  obtain ⟨front, last, rfl, -, hlast⟩ := List.map_eq_append_iff.1 hkinds
  obtain ⟨t, rfl, ht⟩ := List.map_eq_singleton_iff.1 hlast
  exact ⟨front, t, rfl, ht⟩

/-- A template whose first node is a text starts with plain text. -/
theorem span_of_parse {source : String} {nodes : List Node} {value : String}
    (h : parse source = .ok (.text value :: nodes)) : (textUnits.span source.toList).1 ≠ [] := by
  obtain ⟨tokens, htokens, hspelled⟩ := allSpelled_of_parse h
  rw [Node.AllSpelled] at hspelled
  obtain ⟨first, rest, hfirst, -, hkinds⟩ := hspelled
  rw [Node.Spelled] at hfirst
  rw [hfirst] at hkinds
  obtain ⟨t, tokens, rfl, ht, -⟩ := List.map_eq_cons_iff.1 hkinds
  obtain ⟨c, _, hyields, -⟩ := yields_of_tokenize htokens
  cases hyields with
  | cons hstep _ =>
    obtain ⟨layout, w, hrest, -, hmode, hscan, -, -⟩ := Cursor.step_eq_token_cases hstep
    obtain rfl := hmode (by rintro ⟨⟩)
    have hspan := (span_of_scan_text hscan ht).1
    rw [show source.toList = _ from hrest, List.nil_append, hspan]
    exact (Mode.scan_cuts hscan).1

/-- Behind a template that was read to its end the other one is read as if it stood alone. -/
theorem agree_of_yields {a b : String} {tokens : List Token} {d : Draft} {nodes : List Node}
    (hyields : (Cursor.start (a ++ b)).Yields tokens ⟨.text, a.length, b.toList⟩)
    (hpush : Draft.empty.pushAll tokens = .ok d) (hsettle : d.settle = .ok ⟨[], nodes, .content⟩) :
    Agree a.length (Behind [] nodes) (readSource b) (readSource (a ++ b)) := by
  unfold readSource
  rw [hyields.readNodes hpush, readNodes_of_settle hsettle]
  have habove : Draft.empty.Above a.length [] nodes ⟨[], nodes, .content⟩ := ⟨.base [], rfl⟩
  exact habove.readNodes ⟨b, .start b, .empty⟩ (String.length_append ..)

/-- Where plain text goes on, the texts on both sides become one. -/
theorem agree_of_text {a b : String} {cs w : List Char} {tokens : List Token} {d : Draft}
    {nodes : List Node} (hlength : a.length = (cs ++ w).length)
    (hyields : (Cursor.start (a ++ b)).Yields tokens ⟨.text, cs.length, w ++ b.toList⟩)
    (hpush : Draft.empty.pushAll tokens = .ok d) (hsettle : d.settle = .ok ⟨[], nodes, .content⟩)
    (hspells : textUnits.Spells w) (hne : (textUnits.span b.toList).1 ≠ [])
    (hspan : textUnits.span (w ++ b.toList) =
      (w ++ (textUnits.span b.toList).1, (textUnits.span b.toList).2)) :
    ∃ value, Agree a.length
      (Behind [.text value] (.text (String.ofList (unescape w) ++ value) :: nodes))
      (readSource b) (readSource (a ++ b)) := by
  have hsplit := textUnits.span_append b.toList
  have hspan' : textUnits.span ((textUnits.span b.toList).1 ++ (textUnits.span b.toList).2) =
      ((textUnits.span b.toList).1, (textUnits.span b.toList).2) := by
    rw [hsplit]
  generalize (textUnits.span b.toList).1 = v, (textUnits.span b.toList).2 = rest at *
  refine ⟨String.ofList (unescape v), ?_⟩
  -- The first token of the one template and the next token of both.
  have hfirst := Cursor.yields_token 0 (by decide) (Mode.scan_text hspan' hne)
  rw [← hsplit, ← List.append_assoc] at hspan
  have hnext := Cursor.yields_token cs.length (by decide) (Mode.scan_text hspan (by simp [hne]))
  rw [List.append_assoc, hsplit] at hnext
  rw [hsplit] at hfirst
  have hpush' := Draft.pushAll_concat hpush
    (t := ⟨.text (String.ofList (unescape (w ++ v))), cs.length, String.ofList (w ++ v)⟩)
    (Draft.push_eq_ok_iff.2 ⟨_, hsettle, rfl⟩)
  have hpushed : Draft.empty.pushAll [⟨.text (String.ofList (unescape v)), 0, String.ofList v⟩] =
      .ok ⟨[], [.text (String.ofList (unescape v))], .content⟩ := rfl
  unfold readSource
  rw [(hyields.trans hnext).readNodes hpush', show Cursor.start b = ⟨.text, 0, b.toList⟩ from rfl,
    hfirst.readNodes hpushed]
  have habove : (⟨[], [.text (String.ofList (unescape v))], .content⟩ : Draft).Above a.length
      [.text (String.ofList (unescape v))]
      (.text (String.ofList (unescape w) ++ String.ofList (unescape v)) :: nodes)
      ⟨[], .text (String.ofList (unescape (w ++ v))) :: nodes, .content⟩ := by
    rw [hspells.unescape_append, String.ofList_append]
    exact ⟨.base [], rfl⟩
  have hplace : cs.length + (w ++ v).length = a.length + (0 + v.length) := by
    simp only [hlength, List.length_append]
    omega
  rw [hplace]
  exact habove.readNodes ⟨b, ⟨.text, 0 + v.length, rest⟩, _⟩ (String.length_append ..)

/-- Nothing is joined behind a closing bracket. -/
theorem joinNodes_of_leads {source : String} {nodes : List Node} {tokens : List Token} {d : Draft}
    (h : parse source = .ok nodes) (htokens : tokenize source = .ok tokens)
    {cs : List Char} (hleads : Leads cs tokens d) (hmode : d.spot.mode = .text) (more : List Node) :
    joinNodes nodes more = nodes ++ more := by
  refine joinNodes_eq_append ?_
  rintro front value _ _ rfl
  obtain ⟨before, t, rfl, ht⟩ := last_token_of_parse h htokens
  rcases hleads.last_cases hmode with ⟨hnil, -⟩ | ⟨_, t', -, hlast, hclosed, -⟩
  · simp at hnil
  · obtain ⟨-, hlast⟩ := List.append_inj' hlast rfl
    cases hlast
    rcases hclosed with hclosed | hclosed <;> rw [ht] at hclosed <;> cases hclosed

/-- Nothing is joined in front of a template that does not start with plain text. -/
theorem joinNodes_of_span {source : String} {more : List Node} (h : readSource source = .ok more)
    (hspan : (textUnits.span source.toList).1 = []) (nodes : List Node) :
    joinNodes nodes more = nodes ++ more := by
  refine joinNodes_eq_append ?_
  rintro _ _ value rest - rfl
  have hparse : parse source = .ok (.text value :: rest) := by
    rw [parse_eq_readSource, h]
    rfl
  exact span_of_parse hparse hspan

/-- A template behind one that can be read is read to its nodes joined to those of the other one, or
it is refused at the same place of it. -/
theorem readSource_append {a b : String} {nodes : List Node} (ha : parse a = .ok nodes)
    (hseam : NoBracketBetween a.toList b.toList) :
    Agree a.length (fun more joined => joined = joinNodes nodes more) (readSource b)
      (readSource (a ++ b)) := by
  obtain ⟨tokens, d, htokens, hreached, hpush, hsettle⟩ := reached_of_parse ha
  have hstart : Cursor.start (a ++ b) = ⟨.text, 0, a.toList ++ b.toList⟩ := by
    rw [Cursor.start, String.toList_append]
  have hlength : a.length = a.toList.length := String.length_toList.symm
  generalize a.toList = cs at hreached hseam hstart hlength
  cases hreached with
  | ended hleads =>
    have hmode : d.spot.mode = .text := (Draft.mode_settle hsettle).symm
    have hyields := hleads.yields b.toList (Spot.endsBefore_of_text hmode _)
    rw [hmode, ← hstart, ← hlength] at hyields
    refine (agree_of_yields hyields hpush hsettle).imp ?_
    rintro more _ - ⟨_, rfl, rfl⟩
    rw [List.reverse_reverse]
    exact (joinNodes_of_leads ha htokens hleads hmode _).symm
  | @text cs w _ tokens d₀ _ hleads hmode hne hspan htext =>
    have hspells : textUnits.Spells w := by
      have := Units.spells_span textUnits_plain_none (w ++ [])
      rwa [hspan] at this
    have hspan := span_seam hspells hne (hleads.ends_closed hmode) hseam
    have hfront := hleads.yields (w ++ b.toList) (Spot.endsBefore_of_text hmode _)
    rw [hmode, ← List.append_assoc, ← hstart] at hfront
    by_cases hmore : (textUnits.span b.toList).1 = []
    · -- The text ends where the first template does.
      have hrest := textUnits.span_append b.toList
      rw [hmore, List.nil_append] at hrest
      rw [hmore, hrest, List.append_nil] at hspan
      have hyields := hfront.trans
        (Cursor.yields_token cs.length (by decide) (Mode.scan_text hspan hne))
      rw [← List.length_append, ← hlength] at hyields
      refine (agree_of_yields hyields hpush hsettle).imp ?_
      rintro more _ hb ⟨_, rfl, rfl⟩
      rw [List.reverse_reverse]
      exact (joinNodes_of_span hb hmore _).symm
    · obtain ⟨⟨frames, before, spot⟩, hsettle₀, htake⟩ := Draft.push_eq_ok_iff.1 htext
      obtain ⟨hcontent, rfl⟩ := Draft.take?_text htake rfl
      cases hcontent
      obtain ⟨rfl, hnodes, -⟩ := Draft.mk.inj (Except.ok.inj hsettle)
      obtain ⟨value, hagree⟩ :=
        agree_of_text hlength hfront hleads.pushed hsettle₀ hspells hmore hspan
      refine hagree.imp ?_
      rintro _ _ - ⟨more, rfl, rfl⟩
      rw [← List.reverse_reverse nodes, ← hnodes]
      simp [joinNodes_text]

/-- A template behind one that can be read gives its nodes joined to those of the other one. A
syntax error in it is reported at the same place of it. -/
theorem parse_append {a b : String} {nodes : List Node} (ha : parse a = .ok nodes)
    (hseam : NoBracketBetween a.toList b.toList) :
    (∀ more, parse b = .ok more → parse (a ++ b) = .ok (joinNodes nodes more)) ∧
      ∀ e, parse b = .error (.syntaxError e) →
        ∃ e', parse (a ++ b) = .error (.syntaxError e') ∧ e'.position = a.length + e.position := by
  have hagree := readSource_append ha hseam
  rw [parse_eq_readSource b, parse_eq_readSource (a ++ b)]
  generalize readSource b = x, readSource (a ++ b) = x' at hagree
  cases hagree with
  | ok h =>
    refine ⟨?_, ?_⟩
    · rintro more ⟨⟩
      rw [h]
      rfl
    · rintro e ⟨⟩
  | fault f f' position =>
    refine ⟨?_, ?_⟩
    · rintro more ⟨⟩
    · rintro e ⟨⟩
      exact ⟨_, rfl, rfl⟩
  | value e =>
    refine ⟨?_, ?_⟩
    · rintro more ⟨⟩
    · rintro e ⟨⟩

end MailMerge.Markup
