/-
Where a template is refused. A syntax error is reported no later than at the first place from which
the text in front of it could not be completed any more. The kind of an end tag is checked when its
block is closed, with the token behind the tag; so behind its last word and behind the tag the
reading goes on though nothing could complete it.
-/
import MailMerge.Proofs.Markup.Partial
import MailMerge.Proofs.Markup.Viable

namespace MailMerge.Markup

/-- The text ends in an end tag, or in one up to its last word, that names another kind of block
than the innermost one that is open in front of it. -/
def BehindWrongEnd (cs : List Char) : Prop :=
  ∃ (chunks : List Chunk) (tail : List Token) (kind innermost : BlockKind) (outer : List BlockKind),
    tokenize (String.ofList cs) = .ok (chunks.flatMap (·.tokens) ++ tail) ∧
      openBlocks [] (chunks.map (·.part)) = some (innermost :: outer) ∧ kind ≠ innermost ∧
        (tail.map (·.kind) = kind.endSpelling ∨ tail.map (·.kind) = kind.endSpelling.dropLast)

/-- The text in front of a place of a template can be completed, unless it ends in a wrong end
tag. -/
def InTime (source : String) (position : Nat) : Prop :=
  position ≤ source.length ∧ (¬ BehindWrongEnd (source.toList.take position) →
    Viable (source.toList.take position))

/-! ## Places -/

theorem Leads.behindWrongEnd {cs : List Char} {tokens : List Token} {d : Draft}
    (h : Leads cs tokens d) (hwrong : d.AtWrongEnd) : BehindWrongEnd cs := by
  obtain ⟨opened, kind, frame, outer, hframes, hkind, hspot⟩ := hwrong
  have hends : d.spot.EndsBefore [] := by
    rcases hspot with hspot | hspot <;> rw [hspot]
    · rfl
    · trivial
  have hyields := h.yields [] hends
  have hstart : Cursor.start (String.ofList cs) = ⟨.text, 0, cs ++ []⟩ := by
    rw [Cursor.start, String.toList_ofList, List.append_nil]
  rw [← hstart] at hyields
  obtain ⟨chunks, tail, hdivides, rfl⟩ := Draft.divides_of_pushAll h.pushed
  have hblocks := hdivides.blocks
  have hspelled := hdivides.spelled
  rw [hframes] at hblocks
  refine ⟨chunks, tail, kind, frame.tag.kind, Frame.kinds outer, hyields.tokenize rfl, hblocks,
    Ne.symm hkind, ?_⟩
  rcases hspot with hspot | hspot <;> rw [hspot] at hspelled
  · obtain ⟨inside, hinside, htail⟩ := hspelled
    rw [TagSpot.Spelled] at hinside
    subst hinside
    exact .inr htail
  · exact .inl hspelled

section

variable {source : String} {tokens : List Token} {c : Cursor} {d : Draft}
  (hyields : (Cursor.start source).Yields tokens c) (hpush : Draft.empty.pushAll tokens = .ok d)

include hyields hpush

/-- A place up to which the tokens amount to a draft, or behind the layout there. -/
theorem inTime_of_yields {layout more : List Char} (hrest : c.rest = layout ++ more)
    (hlayout : ∀ c ∈ layout, isLayout c = true) (hmode : c.mode ≠ .literal → layout = []) :
    InTime source (c.position + layout.length) := by
  obtain ⟨cs, hreached, hsource, hc⟩ := reached_of_yields hyields hpush
  have hsound : d.spot.Sound d.frames := Draft.sound_pushAll (by trivial) hpush
  have hposition : c.position = cs.length := by rw [hc]
  have hspot : c.mode = d.spot.mode := by rw [hc]
  have htake : source.toList.take (c.position + layout.length) = cs ++ layout := by
    rw [← hsource, hrest, hposition, ← List.append_assoc, ← List.length_append, List.take_left]
  rw [InTime, htake]
  refine ⟨?_, ?_⟩
  · rw [← String.length_toList, ← hsource, hrest, hposition]
    simp
  · intro hbehind
    rw [hspot] at hmode
    refine hreached.viable hsound (fun hwrong => hbehind ?_) hlayout hmode
    have hliteral : d.spot.mode ≠ .literal := by
      obtain ⟨_, _, _, _, -, -, h | h⟩ := hwrong <;> rw [h] <;> rintro ⟨⟩
    rw [hmode hliteral, List.append_nil]
    refine (hreached.leads ?_).behindWrongEnd hwrong
    obtain ⟨_, _, _, _, -, -, h | h⟩ := hwrong <;> rw [h] <;> rintro ⟨⟩

end

theorem length_of_yields {source : String} {tokens : List Token} {c : Cursor} {d : Draft}
    (hyields : (Cursor.start source).Yields tokens c) (hpush : Draft.empty.pushAll tokens = .ok d) :
    c.position + c.rest.length = source.length := by
  obtain ⟨cs, -, hsource, hc⟩ := reached_of_yields hyields hpush
  have hposition : c.position = cs.length := by rw [hc]
  rw [← String.length_toList, ← hsource, List.length_append, hposition]

/-- The place of a token, if those in front of it amount to a draft. -/
theorem inTime_of_token {source : String} {before after : List Token} {t : Token} {c : Cursor}
    {d : Draft} (hyields : (Cursor.start source).Yields (before ++ t :: after) c)
    (hpush : Draft.empty.pushAll before = .ok d) : InTime source t.position := by
  obtain ⟨c', hbefore, hrest⟩ := hyields.split
  cases hrest with
  | cons hstep _ =>
    obtain ⟨layout, w, hlayout, hall, hmode, -, ht, -⟩ := Cursor.step_eq_token_cases hstep
    have hinTime := inTime_of_yields hbefore hpush
      (by rw [hlayout, List.append_assoc] : c'.rest = layout ++ (w ++ _)) hall hmode
    have hposition := congrArg Token.position ht
    rw [hposition]
    exact hinTime

/-! ## Refusals -/

namespace Cursor

theorem position_of_fault {c final : Cursor} {f : ScanFault} (h : c.step = .fault f final) :
    final.position = c.skipLayout.position := by
  unfold step at h
  simp only at h
  split at h
  · cases h
  · split at h <;> cases h <;> rfl

end Cursor

theorem ScanFault.position_of_placed {f : ScanFault} {position position' : Nat} {fault : Fault}
    (h : f.placed position = .fault fault position') : position' = position := by
  cases f with
  | fault f =>
    cases h
    rfl
  | value e => cases h

namespace Draft

theorem settle_eq_error {d : Draft} {e : Refusal} (h : d.settle = .error e) :
    ∃ opened ∈ d.spot.opened?, ∃ fault, e = .fault fault opened := by
  unfold settle at h
  split at h
  · cases h
  · rename_i opened kind hspot
    rw [hspot]
    split at h
    · cases h
      exact ⟨opened, rfl, _, rfl⟩
    · split at h
      · cases h
      · cases h
        exact ⟨opened, rfl, _, rfl⟩
  · cases h

theorem push_eq_error {d : Draft} {t : Token} {e : Refusal} (h : d.push t = .error e) :
    d.settle = .error e ∨ ∃ fault, e = .fault fault t.position := by
  unfold push at h
  cases hsettle : d.settle with
  | error e' =>
    rw [hsettle] at h
    cases h
    exact .inl rfl
  | ok base =>
    rw [hsettle] at h
    simp only [bind, Except.bind] at h
    split at h
    · cases h
    · cases h
      exact .inr ⟨_, rfl⟩

theorem pushAll_eq_error {d : Draft} {tokens : List Token} {e : Refusal}
    (h : d.pushAll tokens = .error e) :
    ∃ before t after d', tokens = before ++ t :: after ∧ d.pushAll before = .ok d' ∧
      d'.push t = .error e := by
  induction tokens generalizing d with
  | nil => cases h
  | cons t tokens ih =>
    cases hpush : d.push t with
    | error e' =>
      rw [pushAll_cons, hpush] at h
      cases h
      exact ⟨[], t, tokens, d, rfl, rfl, hpush⟩
    | ok d₁ =>
      rw [pushAll_cons, hpush] at h
      obtain ⟨before, t', after, d', rfl, hbefore, ht'⟩ := ih h
      exact ⟨t :: before, t', after, d', rfl, pushAll_cons_eq_ok_iff.2 ⟨d₁, hpush, hbefore⟩, ht'⟩

theorem finish_eq_error {d : Draft} {source : String} {e : Refusal}
    (h : d.finish source = .error e) :
    d.settle = .error e ∨ ∃ fault, e = .fault fault source.length := by
  unfold finish at h
  simp only at h
  split at h
  · cases h
    exact .inr ⟨_, rfl⟩
  · cases h
    exact .inr ⟨_, rfl⟩
  · cases h
    exact .inr ⟨_, rfl⟩
  · cases hsettle : d.settle with
    | error e' =>
      rw [hsettle] at h
      cases h
      exact .inl rfl
    | ok base =>
      rw [hsettle] at h
      simp only [bind, Except.bind] at h
      split at h
      · cases h
      · cases h
        exact .inr ⟨_, rfl⟩

end Draft

/-- An end tag of the wrong kind is reported at its bracket, where a block could have ended. -/
theorem inTime_of_settle {source : String} {tokens more : List Token} {c : Cursor} {d : Draft}
    {fault : Fault} {position : Nat} (hyields : (Cursor.start source).Yields (tokens ++ more) c)
    (hpush : Draft.empty.pushAll tokens = .ok d)
    (hsettle : d.settle = .error (.fault fault position)) :
    InTime source position := by
  obtain ⟨opened, hopened, _, hfault⟩ := Draft.settle_eq_error hsettle
  cases hfault
  obtain ⟨chunks, tail, hdivides, rfl⟩ := Draft.divides_of_pushAll hpush
  obtain ⟨bracket, hbracket, rfl⟩ := hdivides.opened position hopened
  obtain ⟨tail, rfl⟩ := List.head?_eq_some_iff.1 hbracket
  obtain ⟨d₀, hbefore, -⟩ := Draft.pushAll_append_eq_ok_iff.1 hpush
  rw [List.append_assoc] at hyields
  exact inTime_of_token hyields hbefore

theorem report_eq_syntaxError {source : String} {r : Refusal} {e : SyntaxError}
    (h : r.report source = .syntaxError e) : ∃ fault, r = .fault fault e.position := by
  cases r with
  | fault f position =>
    cases h
    exact ⟨f, rfl⟩
  | value _ => cases h

/-! ## Wrong end tags -/

/-- No keyword goes on with the word for a kind of block. -/
theorem ofWord?_append (kind : BlockKind) {more : List Char} (h : more ≠ []) :
    Keyword.ofWord? (String.ofList (kind.keyword.word.toList ++ more)) = none := by
  unfold Keyword.ofWord?
  rw [List.find?_eq_none]
  intro k _ hk
  have hword := congrArg String.toList (of_decide_eq_true hk)
  rw [String.toList_ofList] at hword
  cases kind <;> cases k <;> simp [BlockKind.keyword, Keyword.word, h] at hword

namespace Draft

variable {frame : Frame} {outer : List Frame} {nodes : List Node} {n : Nat} {kind : BlockKind}

theorem refused_of_take? {d : Draft} {t : Token} (hsettle : d.settle = .ok d)
    (h : d.take? t = none) (source : String) (tokens : List Token) :
    d.pushAll (t :: tokens) >>= finish source = .error (.fault (d.complaint t) t.position) := by
  rw [pushAll_cons]
  unfold push
  rw [hsettle]
  simp only [bind, Except.bind, h]
  rfl

/-- An end tag of the wrong kind is refused in the end, whatever follows its last word. -/
theorem refused_ended (h : frame.tag.kind ≠ kind) (source : String) (tokens : List Token) :
    ∃ e, (⟨frame :: outer, nodes, .tag n (.ended kind)⟩ : Draft).pushAll tokens >>= finish source =
      .error e := by
  cases tokens with
  | nil => exact ⟨_, rfl⟩
  | cons t tokens =>
    by_cases hclose : t.kind = .closeTag
    · have htake : (⟨frame :: outer, nodes, .tag n (.ended kind)⟩ : Draft).take? t =
          some ⟨frame :: outer, nodes, .pending n (.closes kind)⟩ := by
        simp [take?, hclose, TagSpot.effect?]
      rw [pushAll_cons, push_of_take? rfl htake]
      exact ⟨_, refused_of_settle (settle_mismatched h) source tokens⟩
    · have hnext : (TagSpot.ended kind).next? t.kind = none := by
        cases t.kind <;> rfl
      have htake : (⟨frame :: outer, nodes, .tag n (.ended kind)⟩ : Draft).take? t = none := by
        simp [take?, hnext]
      exact ⟨_, refused_of_take? rfl htake source tokens⟩

/-- An end tag is read up to the word for a kind of block. -/
theorem pushAll_endStart {bracket word blank : Token} (hbracket : bracket.kind = .openTag)
    (hword : word.kind = .keyword .endWord) (hblank : blank.kind = .blank) :
    (⟨frame :: outer, nodes, .content⟩ : Draft).pushAll [bracket, word, blank] =
      .ok ⟨frame :: outer, nodes, .tag bracket.position .endStart⟩ := by
  simp [pushAll_cons, push, settle, take?, TagSpot.next?, hbracket, hword, hblank, bind,
    Except.bind, pure, Except.pure]

/-- Behind the word `end` only the word for a kind of block is read. -/
theorem refused_endStart (h : frame.tag.kind ≠ kind) (source : String) {t : Token}
    (ht : t.kind = .keyword kind.keyword ∨ ∃ name, t.kind = .segment name) (tokens : List Token) :
    ∃ e, (⟨frame :: outer, nodes, .tag n .endStart⟩ : Draft).pushAll (t :: tokens) >>= finish source =
      .error e := by
  rcases ht with ht | ⟨name, ht⟩
  · have htake : (⟨frame :: outer, nodes, .tag n .endStart⟩ : Draft).take? t =
        some ⟨frame :: outer, nodes, .tag n (.ended kind)⟩ := by
      cases kind <;> simp [take?, ht, TagSpot.next?, BlockKind.keyword]
    rw [pushAll_cons, push_of_take? rfl htake]
    exact refused_ended h source tokens
  · have htake : (⟨frame :: outer, nodes, .tag n .endStart⟩ : Draft).take? t = none := by
      simp [take?, ht, TagSpot.next?]
    exact ⟨_, refused_of_take? rfl htake source tokens⟩

end Draft

namespace Bracket

/-- A keyword is spelled as its word. -/
theorem Shape.eq_word {k : Keyword} {w : List Char} (h : Bracket.tag.Shape (.keyword k) w) :
    w = k.word.toList := by
  generalize hkind : TokenKind.keyword k = kind at h
  cases h with
  | word _ _ =>
    replace hkind : TokenKind.keyword k = Rule.wordOf w := hkind
    unfold Rule.wordOf at hkind
    split at hkind
    · rename_i k' hk
      cases hkind
      unfold Keyword.ofWord? at hk
      have hword := List.find?_some hk
      rw [of_decide_eq_true hword, String.toList_ofList]
    · cases hkind
  | quoted _ _ | blank _ _ | closing _ | dot | atSign | operator _ _ => cases hkind

/-- The word for a kind of block stays a keyword, or becomes a part of a name. -/
theorem scan_kind (kind : BlockKind) (more : List Char) :
    ∃ found w rest, Mode.tag.scan (w ++ rest) = .ok ⟨found, w, rest⟩ ∧
      w ++ rest = kind.keyword.word.toList ++ more ∧
        (found = .keyword kind.keyword ∨ ∃ name, found = .segment name) := by
  have hspan : tagUnits.span (kind.keyword.word.toList ++ more) =
      (kind.keyword.word.toList ++ (tagUnits.span more).1, (tagUnits.span more).2) := by
    have hspells : tagUnits.Spells kind.keyword.word.toList := by cases kind <;> rfl
    exact hspells.span_append fun _ _ hplain => hplain
  have hne : kind.keyword.word.toList ++ (tagUnits.span more).1 ≠ [] := by
    cases kind <;> simp [BlockKind.keyword, Keyword.word]
  have hspells : tagUnits.Spells (kind.keyword.word.toList ++ (tagUnits.span more).1) := by
    have := Units.uniform_tagUnits.spells_span (kind.keyword.word.toList ++ more)
    rwa [hspan] at this
  have hshape : Mode.tag.Shape _ _ := Bracket.Shape.word hne hspells
  refine ⟨_, _, (tagUnits.span more).2, Mode.scan_of_shape hshape ?_, ?_, ?_⟩
  · rcases Bracket.tag.word_cases (kind.keyword.word.toList ++ (tagUnits.span more).1) with
      ⟨name, h⟩ | ⟨k, h⟩ <;> rw [h] <;> exact tagUnits.span_span more
  · rw [List.append_assoc, tagUnits.span_append]
  · show Rule.wordOf _ = _ ∨ ∃ name, Rule.wordOf _ = _
    by_cases hmore : (tagUnits.span more).1 = []
    · refine .inl ?_
      rw [hmore, List.append_nil, Rule.wordOf, String.ofList_toList]
      cases kind <;> rfl
    · rw [Rule.wordOf, ofWord?_append kind hmore]
      exact .inr ⟨_, rfl⟩

end Bracket

/-- An end tag that was read up to its last word starts with these four tokens. -/
theorem endSpelling_cases {kind : BlockKind} {tail : List Token}
    (h : tail.map (·.kind) = kind.endSpelling ∨ tail.map (·.kind) = kind.endSpelling.dropLast) :
    ∃ bracket word blank last rest, tail = [bracket, word, blank] ++ last :: rest ∧
      bracket.kind = .openTag ∧ word.kind = .keyword .endWord ∧ blank.kind = .blank ∧
        last.kind = .keyword kind.keyword := by
  obtain ⟨after, hafter⟩ : [TokenKind.openTag, .keyword .endWord, .blank, .keyword kind.keyword] <+:
      tail.map (·.kind) := by
    rcases h with h | h <;> rw [h]
    · exact ⟨[.closeTag], rfl⟩
    · exact ⟨[], rfl⟩
  obtain ⟨bracket, _, rfl, hbracket, hafter⟩ := List.map_eq_cons_iff.1 hafter.symm
  obtain ⟨word, _, rfl, hword, hafter⟩ := List.map_eq_cons_iff.1 hafter
  obtain ⟨blank, _, rfl, hblank, hafter⟩ := List.map_eq_cons_iff.1 hafter
  obtain ⟨last, rest, rfl, hlast, -⟩ := List.map_eq_cons_iff.1 hafter
  exact ⟨bracket, word, blank, last, rest, rfl, hbracket, hword, hblank, hlast⟩

/-- In front of its last word the end tag is read to the same draft whatever follows. -/
theorem BehindWrongEnd.leads {cs : List Char} (h : BehindWrongEnd cs) :
    ∃ front rest tokens frame outer nodes n kind,
      cs = front ++ (BlockKind.keyword kind).word.toList ++ rest ∧ frame.tag.kind ≠ kind ∧
        Leads front tokens ⟨frame :: outer, nodes, .tag n .endStart⟩ := by
  obtain ⟨chunks, tail, kind, innermost, outer, htokens, hblocks, hkind, htail⟩ := h
  obtain ⟨bracket, word, blank, last, rest, rfl, hbracket, hword, hblank, hlast⟩ :=
    endSpelling_cases htail
  obtain ⟨frames, before, hframes, hreads⟩ :=
    @Draft.reads_chunks chunks [] (innermost :: outer) [] hblocks
  obtain ⟨frame, frames, rfl, rfl, -⟩ := List.map_eq_cons_iff.1 hframes
  have hpush : Draft.empty.pushAll (chunks.flatMap (·.tokens) ++ [bracket, word, blank]) =
      .ok ⟨frame :: frames, before, .tag bracket.position .endStart⟩ := by
    rw [show Draft.empty = ⟨[], [], .content⟩ from rfl, hreads.pushAll_append (by simp)]
    exact Draft.pushAll_endStart hbracket hword hblank
  obtain ⟨c, _, hyields, -⟩ := yields_of_tokenize htokens
  rw [← List.append_assoc] at hyields
  obtain ⟨c₁, hyields, hrest⟩ := hyields.split
  obtain ⟨front, hreached, hsource, hc₁⟩ := reached_of_yields hyields hpush
  cases hrest with
  | @cons _ next _ _ _ hstep _ =>
    rw [hc₁] at hstep
    obtain ⟨layout, w, hlayout, -, hmode, hscan, -, -⟩ := Cursor.step_eq_token_cases hstep
    obtain rfl := hmode (by rintro ⟨⟩)
    have hshape : Bracket.tag.Shape last.kind w := Mode.shape_of_scan hscan
    rw [hlast] at hshape
    refine ⟨front, next.rest, _, frame, frames, before, bracket.position, kind, ?_, hkind.symm,
      hreached.leads (by rintro ⟨⟩)⟩
    rw [← String.toList_ofList (l := cs), ← hsource, ← hshape.eq_word, List.append_assoc]
    exact congrArg (front ++ ·) hlayout

/-- Nothing completes a text behind an end tag of the wrong kind. -/
theorem BehindWrongEnd.not_viable {cs : List Char} (h : BehindWrongEnd cs) : ¬ Viable cs := by
  rintro ⟨more, nodes, hparse⟩
  obtain ⟨front, rest, tokens, frame, outer, before, n, kind, rfl, hkind, hleads⟩ := h.leads
  obtain ⟨found, w, rest', hscan, hw, hfound⟩ := Bracket.scan_kind kind (rest ++ more)
  have hstart : Cursor.start (String.ofList (front ++ kind.keyword.word.toList ++ rest ++ more)) =
      ⟨.text, 0, front ++ (w ++ rest')⟩ := by
    rw [Cursor.start, String.toList_ofList, hw]
    simp only [List.append_assoc]
  generalize front ++ kind.keyword.word.toList ++ rest ++ more = cs at hparse hstart
  have hends : StartsWord (w ++ rest') := by
    rw [hw]
    exact ((shape_keyword kind.keyword).startsWord (by simp [Bracket.close])).append _
  have hyields := (hleads.yields (w ++ rest') hends).trans
    (Cursor.yields_token front.length (by rintro ⟨⟩) hscan)
  have hread := (hyields.readTokens (Reader.new.load (String.ofList cs)) hstart).1
  obtain ⟨tokens', htokens, hnodes⟩ := tokenize_of_parse hparse
  rw [(tokenize_eq_ok_iff.1 htokens).1, List.append_assoc] at hread
  unfold nodesOf at hnodes
  rw [hread, Draft.pushAll_append, hleads.pushed] at hnodes
  obtain ⟨e, he⟩ := @Draft.refused_endStart frame outer before n kind hkind (String.ofList cs)
    ⟨found, _, _⟩ hfound _
  cases he.symm.trans hnodes

/-! ## Syntax errors -/

theorem inTime_of_parse {source : String} {e : SyntaxError}
    (h : parse source = .error (.syntaxError e)) : InTime source e.position := by
  obtain ⟨tokens, c, r, hyields, hreport, hcause⟩ := refusal_of_parse h
  obtain ⟨fault, rfl⟩ := report_eq_syntaxError hreport.symm
  obtain ⟨layout, hrest, hlayout, hmode, hskip⟩ := c.skipLayout_cases
  rcases hcause with hpush | ⟨d, hpush, ⟨⟨final, hstep⟩, hfinish⟩ | ⟨f, final, hstep, hplaced⟩⟩
  · obtain ⟨before, t, after, d, rfl, hbefore, ht⟩ := Draft.pushAll_eq_error hpush
    rcases Draft.push_eq_error ht with hsettle | ⟨_, hfault⟩
    · exact inTime_of_settle hyields hbefore hsettle
    · rw [(Refusal.fault.inj hfault).2]
      exact inTime_of_token hyields hbefore
  · have hinTime := inTime_of_yields hyields hpush hrest hlayout hmode
    rcases Draft.finish_eq_error hfinish with hsettle | ⟨_, hfault⟩
    · rw [← List.append_nil tokens] at hyields
      exact inTime_of_settle hyields hpush hsettle
    · rw [c.rest_of_finished hstep, List.append_nil] at hrest
      rw [(Refusal.fault.inj hfault).2, ← length_of_yields hyields hpush, hrest]
      exact hinTime
  · have hinTime := inTime_of_yields hyields hpush hrest hlayout hmode
    have hposition := ScanFault.position_of_placed hplaced.symm
    rw [hposition, c.position_of_fault hstep, hskip]
    exact hinTime

/-- A template with a syntax error can be completed from the place of the error on, unless this is
behind the last word or behind the bracket of an end tag of the wrong kind; there nothing completes
it. -/
theorem syntaxError_inTime {source : String} {e : SyntaxError}
    (h : parse source = .error (.syntaxError e)) :
    e.position ≤ source.length ∧
      ((∃ more nodes, parse (String.ofList (source.toList.take e.position ++ more)) = .ok nodes) ↔
        ¬ BehindWrongEnd (source.toList.take e.position)) := by
  obtain ⟨hposition, hviable⟩ := inTime_of_parse h
  refine ⟨hposition, ?_, hviable⟩
  intro hcompleted hbehind
  exact hbehind.not_viable hcompleted

/-- An end tag of the wrong kind is refused at its bracket, where the block can still be closed. -/
theorem syntaxError_inTime_mismatched :
    ∃ e, parse "\x7b@ for x in y @\x7d\x7b@ end if @\x7d" = .error (.syntaxError e) ∧
      e.position = 16 ∧ ∃ more nodes,
        parse (String.ofList ("\x7b@ for x in y @\x7d".toList ++ more)) = .ok nodes := by
  have hparse : parse "\x7b@ for x in y @\x7d\x7b@ end if @\x7d" =
      .error (.syntaxError ⟨.mismatchedEndTag .loop .conditional, 16, 1, 17⟩) :=
    parse_of_within 40 rfl
  refine ⟨_, hparse, rfl, (syntaxError_inTime hparse).2.2 ?_⟩
  rintro ⟨chunks, tail, kind, _, _, htokens, -, -, htail⟩
  have hfront : tokenize "\x7b@ for x in y @\x7d" =
      .ok [⟨.openTag, 0, "\x7b@ "⟩, ⟨.keyword .forWord, 3, "for"⟩, ⟨.blank, 6, " "⟩,
        ⟨.segment "x", 7, "x"⟩, ⟨.blank, 8, " "⟩, ⟨.keyword .inWord, 9, "in"⟩, ⟨.blank, 11, " "⟩,
        ⟨.segment "y", 12, "y"⟩, ⟨.closeTag, 13, " @\x7d"⟩] :=
    tokenize_of_within 40 rfl
  have hsame := Except.ok.inj (hfront.symm.trans htokens)
  have hsuffix : tail.map (·.kind) <:+ [.openTag, .keyword .forWord, .blank, .segment "x", .blank,
      .keyword .inWord, .blank, .segment "y", .closeTag] :=
    ⟨_, (List.map_append ..).symm.trans (congrArg (List.map (·.kind)) hsame.symm)⟩
  revert hsuffix
  rcases htail with htail | htail <;> rw [htail] <;> cases kind <;> decide

/-- Behind the last word of an end tag of the wrong kind the end of the template is reported, though
nothing completes the template there. -/
theorem syntaxError_behind_wrong_word :
    (∃ e, parse "\x7b@ if a=\"\" @\x7d\x7b@ end for" = .error (.syntaxError e) ∧ e.position = 23) ∧
      ¬ ['@', '\x7d'] <:+ "\x7b@ if a=\"\" @\x7d\x7b@ end for".toList.take 23 ∧
      ¬ ∃ more nodes, parse (String.ofList
        ("\x7b@ if a=\"\" @\x7d\x7b@ end for".toList.take 23 ++ more)) = .ok nodes := by
  have hparse : parse "\x7b@ if a=\"\" @\x7d\x7b@ end for" =
      .error (.syntaxError ⟨.unterminatedTag, 23, 1, 24⟩) :=
    parse_of_within 40 rfl
  refine ⟨⟨_, hparse, rfl⟩, by decide, BehindWrongEnd.not_viable ?_⟩
  let test : Comparison := ⟨⟨[], "a"⟩, .equal, .text ""⟩
  let opening : Chunk :=
    ⟨.tag (.opens (.conditional test)),
      [⟨.openTag, 0, "\x7b@ "⟩, ⟨.keyword .ifWord, 3, "if"⟩, ⟨.blank, 5, " "⟩,
        ⟨.segment "a", 6, "a"⟩, ⟨.operator .equal, 7, "="⟩, ⟨.literal (.text ""), 8, "\"\""⟩,
        ⟨.closeTag, 10, " @\x7d"⟩],
      ⟨_, rfl, [], .inl rfl, rfl⟩⟩
  have htokens : tokenize "\x7b@ if a=\"\" @\x7d\x7b@ end for" =
      .ok ([opening].flatMap (·.tokens) ++ [⟨.openTag, 13, "\x7b@ "⟩, ⟨.keyword .endWord, 16, "end"⟩,
        ⟨.blank, 19, " "⟩, ⟨.keyword .forWord, 20, "for"⟩]) :=
    tokenize_of_within 40 rfl
  exact ⟨[opening], _, .loop, .conditional, [], htokens, rfl, by decide, .inr rfl⟩

end MailMerge.Markup
