/-
Templates in which a number has too many digits. Where a comparison asks for a literal, an integer
with more digits than are read is no syntax error: it has no place and is not marked in an editor.
Everything else that can be wrong with a template is a syntax error.
-/
import MailMerge.Editor.Diagnostic
import MailMerge.Merge.Template
import MailMerge.Proofs.Markup.Refusals
import MailMerge.Proofs.Number.Overlong

namespace MailMerge.Markup

open MailMerge.Text MailMerge.Number

/-- Behind the text a literal is asked for: a zero there is cut off as one, and then only the end of
the tag is missing. -/
def AwaitsLiteral (cs : List Char) : Prop :=
  ∃ tokens e,
    tokenize (String.ofList (cs ++ ['0'])) =
        .ok (tokens ++ [⟨.literal (.unsigned 0), cs.length, "0"⟩]) ∧
      parse (String.ofList (cs ++ ['0'])) = .error (.syntaxError e) ∧ e.fault = .unterminatedTag

/-- Where the template asks for a literal there is an integer with too many digits, and the fault
tells how many. -/
def OverlongAt (source : String) (e : ValueFault) : Prop :=
  ∃ front number count, source.toList = front ++ number ∧ AwaitsLiteral front ∧
    StartsOverlong number count ∧ e = .tooManyDigits ⟨count⟩

/-! ## Numbers -/

/-- In front of what ends it an integer with too many digits cannot be cut off. -/
theorem number_of_startsOverlong {cs : List Char} {count : Nat} (h : StartsOverlong cs count) :
    number cs = some (.error (.value (.tooManyDigits ⟨count⟩))) := by
  obtain ⟨sign, digits, rest, rfl, hsign, hdigits, rfl, hlimit, hends⟩ := h
  have hne : digits ≠ [] := List.length_pos_iff.1 (Nat.zero_lt_of_lt hlimit)
  obtain ⟨d, hd⟩ := spanDecimal_append hsign hdigits hne rest
  obtain ⟨s, hspelling⟩ := integerSpelling?_append hsign hdigits hne
  have hlength := length_digitValues hdigits
  have hread := Literal.readNumber_overlong hspelling (by rwa [hlength])
  rw [endsInteger_iff.1 hends, ← List.append_assoc] at hd
  rw [← List.append_assoc]
  generalize sign ++ digits = w at hd hread ⊢
  simp [number, hd, hread, hlength]

/-- Nothing else that is spelled as a decimal is refused. -/
theorem startsOverlong_of_number {cs : List Char} {f : ScanFault}
    (h : number cs = some (.error f)) :
    ∃ count, StartsOverlong cs count ∧ f = .value (.tooManyDigits ⟨count⟩) := by
  obtain ⟨⟨d, rest⟩, hd, hx⟩ := Option.map_eq_some_iff.1 h
  obtain ⟨w, rfl, hextent⟩ := spanDecimal_extent hd
  have hspan := hextent [] (by rintro _ ⟨⟩)
  rw [List.append_nil] at hspan
  simp only [List.length_append, Nat.add_sub_cancel, List.take_left, List.drop_left] at hx
  by_cases hlong : ∃ s values, integerSpelling? w = some (s, values) ∧ digitLimit < values.length
  · obtain ⟨s, values, hspelling, hlimit⟩ := hlong
    rw [Literal.readNumber_overlong hspelling hlimit] at hx
    cases hx
    obtain ⟨sign, digits, rfl, hsign, hdigits, hlength, hne⟩ := integerSpelling?_split hspelling
    refine ⟨values.length, ?_, rfl⟩
    refine ⟨sign, digits, rest, List.append_assoc .., hsign, hdigits, hlength, hlimit, ?_⟩
    obtain ⟨d', hd'⟩ := spanDecimal_append hsign hdigits hne rest
    rw [List.append_assoc, hd'] at hd
    exact endsInteger_iff.2 (Prod.mk.inj (Option.some.inj hd)).2
  · have hfits : ∀ s values, integerSpelling? w = some (s, values) →
        values.length ≤ digitLimit := by
      intro s values hspelling
      by_contra hlimit
      exact hlong ⟨s, values, hspelling, Nat.not_le.1 hlimit⟩
    obtain ⟨value, hread⟩ := Literal.readNumber_of_spanDecimal hspan hfits
    rw [hread] at hx
    cases hx

/-- How an integer with too many digits starts. -/
theorem head_of_startsOverlong {cs : List Char} {count : Nat} (h : StartsOverlong cs count) :
    ∃ c rest, cs = c :: rest ∧ isLayout c = false ∧ c ≠ '"' ∧ c ≠ '=' := by
  obtain ⟨sign, digits, rest, rfl, hsign, hdigits, rfl, hlimit, -⟩ := h
  have hne : digits ≠ [] := List.length_pos_iff.1 (Nat.zero_lt_of_lt hlimit)
  obtain ⟨d, hd⟩ := spanDecimal_append hsign hdigits hne rest
  generalize sign ++ (digits ++ rest) = cs at hd
  cases cs with
  | nil => cases hd
  | cons c cs => exact ⟨c, cs, rfl, plain_of_spanDecimal hd⟩

/-! ## Steps of the scanner -/

theorem Mode.scan_eq_value_iff {mode : Mode} {cs : List Char} {e : ValueFault} :
    mode.scan cs = .error (.value e) ↔
      mode = .literal ∧ ∃ count, StartsOverlong cs count ∧ e = .tooManyDigits ⟨count⟩ := by
  constructor
  · intro h
    unfold Mode.scan at h
    split at h
    · cases h
    · split at h
      · rename_i x hx
        subst h
        split at hx
        · rename_i hmode
          obtain ⟨count, hstarts, hvalue⟩ := startsOverlong_of_number hx
          cases hvalue
          exact ⟨hmode, count, hstarts, rfl⟩
        · cases hx
      · cases h
  · rintro ⟨rfl, count, hstarts, rfl⟩
    obtain ⟨c, rest, rfl, -, hquote, -⟩ := head_of_startsOverlong hstarts
    have hrules : Mode.literal.rules.findSome? (· (c :: rest)) = none := by
      simp [Mode.rules, Rule.quotedText, Units.spanQuoted, hquote]
    unfold Mode.scan
    rw [hrules]
    simp only [if_true, number_of_startsOverlong hstarts]

namespace Cursor

theorem step_eq_value_iff {c : Cursor} {e : ValueFault} :
    (∃ final, c.step = .fault (.value e) final) ↔
      c.mode = .literal ∧ ∃ count, StartsOverlong c.skipLayout.rest count ∧
        e = .tooManyDigits ⟨count⟩ := by
  rw [← c.mode_skipLayout, ← Mode.scan_eq_value_iff]
  unfold step
  simp only
  by_cases hrest : c.skipLayout.rest = []
  · have hscan : c.skipLayout.mode.scan [] ≠ .error (.value e) := by
      intro h
      obtain ⟨-, count, hstarts, -⟩ := Mode.scan_eq_value_iff.1 h
      obtain ⟨_, _, hcons, -⟩ := head_of_startsOverlong hstarts
      cases hcons
    simp [hrest, hscan]
  · rw [if_neg hrest]
    cases c.skipLayout.mode.scan c.skipLayout.rest with
    | ok x => simp
    | error f => cases f <;> simp

end Cursor

/-! ## Reading the structure -/

namespace Draft

variable {d d' : Draft} {e : Refusal}

theorem settle_isFault (h : d.settle = .error e) :
    ∃ fault position, e = .fault fault position ∧ fault ≠ .unterminatedTag := by
  unfold settle at h
  split at h
  · cases h
  · split at h
    · cases h
      exact ⟨_, _, rfl, nofun⟩
    · split at h
      · cases h
      · cases h
        exact ⟨_, _, rfl, nofun⟩
  · cases h

theorem complaint_ne (d : Draft) (t : Token) : d.complaint t ≠ .unterminatedTag := by
  unfold complaint
  split
  · nofun
  · nofun
  · split <;> nofun

/-- A token that cannot follow is a fault of its own. -/
theorem pushAll_isFault {tokens : List Token} (h : d.pushAll tokens = .error e) :
    ∃ fault position, e = .fault fault position ∧ fault ≠ .unterminatedTag := by
  obtain ⟨_, t, _, base, -, -, hpush⟩ := pushAll_eq_error h
  unfold push at hpush
  cases hsettle : base.settle with
  | error e' =>
    rw [hsettle] at hpush
    cases hpush
    exact settle_isFault hsettle
  | ok base' =>
    rw [hsettle] at hpush
    simp only [bind, Except.bind] at hpush
    split at hpush
    · cases hpush
    · cases hpush
      exact ⟨_, _, rfl, base'.complaint_ne t⟩

theorem finish_isFault {source : String} (h : d.finish source = .error e) :
    ∃ fault position, e = .fault fault position := by
  rcases finish_eq_error h with hsettle | ⟨fault, rfl⟩
  · obtain ⟨fault, position, rfl, -⟩ := settle_isFault hsettle
    exact ⟨fault, position, rfl⟩
  · exact ⟨fault, source.length, rfl⟩

end Draft

/-- A template has a fault without a place if its tokens amount to a draft up to there. -/
theorem parse_eq_valueError_iff_step {source : String} {e : ValueFault} :
    parse source = .error (.valueError e) ↔
      ∃ tokens c d, (Cursor.start source).Yields tokens c ∧ Draft.empty.pushAll tokens = .ok d ∧
        ∃ final, c.step = .fault (.value e) final := by
  constructor
  · intro h
    obtain ⟨tokens, c, r, hyields, hreport, hcause⟩ := refusal_of_parse h
    -- Only the scanner finds faults without a place.
    rcases hcause with hpush | ⟨d, hpush, ⟨-, hfinish⟩ | ⟨f, final, hstep, rfl⟩⟩
    · obtain ⟨fault, position, rfl, -⟩ := Draft.pushAll_isFault hpush
      cases hreport
    · obtain ⟨fault, position, rfl⟩ := Draft.finish_isFault hfinish
      cases hreport
    · cases f with
      | fault f => cases hreport
      | value e' =>
        cases hreport
        exact ⟨tokens, c, d, hyields, hpush, final, hstep⟩
  · rintro ⟨tokens, c, d, hyields, hpush, final, hstep⟩
    exact parse_of_fault hyields hpush hstep

/-! ## Where a literal is asked for -/

/-- A literal can follow there, and only the end of a tag is asked for behind it. -/
theorem Draft.push_literal {d : Draft} (h : d.spot.mode = .literal) (value : Literal)
    (position : Nat) (spelling : String) :
    ∃ opened spot, d.push ⟨.literal value, position, spelling⟩ =
        .ok { d with spot := .tag opened spot } ∧
      ∀ more, EndsDecimal more → spot.EndsBefore more := by
  obtain ⟨frames, nodes, spot⟩ := d
  obtain ⟨opened, e, op, rfl | ⟨other, name, lookup, rfl⟩⟩ := Spot.eq_of_literal h
  · exact ⟨opened, .test (.complete ⟨e, op, value⟩), rfl, fun _ h => h⟩
  · exact ⟨opened, .condition other name lookup (.complete ⟨e, op, value⟩), rfl, fun _ h => h⟩

theorem shape_zero : LiteralShape (.literal (.unsigned 0)) ['0'] :=
  .number (d := ⟨.absent, [0], [], 0⟩) (by decide) (by decide)

theorem Leads.awaitsLiteral {cs layout : List Char} {tokens : List Token} {d : Draft}
    (h : Leads cs tokens d) (hmode : d.spot.mode = .literal)
    (hlayout : ∀ c ∈ layout, isLayout c = true) : AwaitsLiteral (cs ++ layout) := by
  obtain ⟨opened, spot, hpush, hends⟩ :=
    Draft.push_literal hmode (.unsigned 0) (cs.length + layout.length) (String.ofList ['0'])
  have hshape : d.spot.mode.Shape (.literal (.unsigned 0)) ['0'] := by
    rw [hmode]
    exact shape_zero
  have hleads := h.push (by simp) hshape hlayout (fun hne => (hne hmode).elim) hpush
  have hyields := hleads.yields [] (hends [] (by rintro _ ⟨⟩))
  have hstart : Cursor.start (String.ofList (cs ++ layout ++ ['0'])) =
      ⟨.text, 0, cs ++ (layout ++ ['0']) ++ []⟩ := by
    rw [Cursor.start, String.toList_ofList, List.append_nil, List.append_assoc]
  rw [← hstart] at hyields
  have htokens := hyields.tokenize rfl
  rw [← List.length_append] at htokens
  have hpushed := hleads.pushed
  rw [← List.length_append] at hpushed
  have hparse := parse_of_tokenize htokens
  unfold nodesOf at hparse
  rw [hpushed] at hparse
  exact ⟨tokens, _, htokens, hparse, rfl⟩

/-- A text asks for a literal if its tokens do. -/
theorem awaitsLiteral_of_tokenize {cs : List Char} {tokens : List Token} {d : Draft}
    (h : tokenize (String.ofList cs) = .ok tokens) (hpush : Draft.empty.pushAll tokens = .ok d)
    (hmode : d.spot.mode = .literal) : AwaitsLiteral cs := by
  obtain ⟨c, final, hyields, hstep⟩ := yields_of_tokenize h
  obtain ⟨front, hreached, hsource, -⟩ := reached_of_yields hyields hpush
  obtain ⟨layout, hrest, hlayout, -, -⟩ := c.skipLayout_cases
  rw [c.rest_of_finished hstep, List.append_nil] at hrest
  rw [hrest, String.toList_ofList] at hsource
  rw [← hsource]
  exact (hreached.leads (Spot.ne_content_of_literal hmode)).awaitsLiteral hmode hlayout

/-- Where a literal is asked for, the tokens amount to a draft whatever stands there. -/
theorem AwaitsLiteral.leads {front : List Char} (h : AwaitsLiteral front) :
    ∃ cs layout tokens d, front = cs ++ layout ∧ Leads cs tokens d ∧ d.spot.mode = .literal ∧
      ∀ c ∈ layout, isLayout c = true := by
  obtain ⟨tokens, e, htokens, hparse, hfault⟩ := h
  obtain ⟨_, _, hyields, -⟩ := yields_of_tokenize htokens
  obtain ⟨c, hyields, hzero⟩ := hyields.split
  -- The zero could follow, as it is not what is complained about.
  obtain ⟨d', hpushed⟩ : ∃ d', Draft.empty.pushAll
      (tokens ++ [⟨.literal (.unsigned 0), front.length, "0"⟩]) = .ok d' := by
    rw [parse_of_tokenize htokens] at hparse
    unfold nodesOf at hparse
    cases hpushed : Draft.empty.pushAll
        (tokens ++ [⟨.literal (.unsigned 0), front.length, "0"⟩]) with
    | ok d' => exact ⟨d', rfl⟩
    | error r =>
      obtain ⟨fault, position, rfl, hne⟩ := Draft.pushAll_isFault hpushed
      rw [hpushed] at hparse
      cases hparse
      exact (hne hfault).elim
  obtain ⟨d, hd, hlast⟩ := Draft.pushAll_append_eq_ok_iff.1 hpushed
  obtain ⟨cs, hreached, hsource, hc⟩ := reached_of_yields hyields hd
  cases hzero with
  | cons hstep _ =>
    obtain ⟨layout, w, hrest, hlayout, -, hscan, ht, -⟩ := Cursor.step_eq_token_cases hstep
    have hmode : d.spot.mode = .literal := by
      rw [← Mode.eq_literal_of_shape (Mode.shape_of_scan hscan), hc]
    have hleads := hreached.leads (Spot.ne_content_of_literal hmode)
    refine ⟨cs, layout, tokens, d, ?_, hleads, hmode, hlayout⟩
    have hposition : front.length = c.position + layout.length := congrArg Token.position ht
    rw [show c.position = cs.length by rw [hc], ← List.length_append] at hposition
    rw [String.toList_ofList, hrest, List.append_assoc, ← List.append_assoc cs] at hsource
    exact (List.append_inj_left hsource hposition.symm).symm

/-- A template has a fault without a place exactly if a number in it has too many digits. -/
theorem parse_eq_valueError_iff {source : String} {e : ValueFault} :
    parse source = .error (.valueError e) ↔ OverlongAt source e := by
  rw [parse_eq_valueError_iff_step]
  constructor
  · rintro ⟨tokens, c, d, hyields, hpush, hstep⟩
    obtain ⟨hmode, count, hstarts, rfl⟩ := Cursor.step_eq_value_iff.1 hstep
    obtain ⟨cs, hreached, hsource, hc⟩ := reached_of_yields hyields hpush
    obtain ⟨layout, hrest, hlayout, -, -⟩ := c.skipLayout_cases
    have hspot : d.spot.mode = .literal := by
      rw [← hmode, hc]
    refine ⟨cs ++ layout, c.skipLayout.rest, count, ?_, ?_, hstarts, rfl⟩
    · rw [← hsource, List.append_assoc, ← hrest]
    · exact (hreached.leads (Spot.ne_content_of_literal hspot)).awaitsLiteral hspot hlayout
  · rintro ⟨front, number, count, hsource, hawaits, hstarts, rfl⟩
    obtain ⟨cs, layout, tokens, d, rfl, hleads, hmode, hlayout⟩ := hawaits.leads
    obtain ⟨c, rest, rfl, hhead, -, hequal⟩ := head_of_startsOverlong hstarts
    have hends : d.spot.EndsBefore (layout ++ c :: rest) := by
      refine Spot.endsBefore_of_literal hmode ?_
      cases layout with
      | nil => simpa using hequal
      | cons d layout =>
        rw [List.forall_mem_cons] at hlayout
        intro h
        cases h
        cases hlayout.1
    have hyields := hleads.yields _ hends
    rw [← List.append_assoc, ← hsource] at hyields
    refine ⟨tokens, _, d, hyields, hleads.pushed, ?_⟩
    rw [Cursor.step_eq_value_iff]
    refine ⟨hmode, count, ?_, rfl⟩
    rw [Cursor.rest_skipLayout]
    show StartsOverlong (d.spot.mode.skip _) count
    rw [hmode]
    unfold Mode.skip
    rw [if_pos rfl, List.dropWhile_append_of_pos hlayout, List.dropWhile_cons, hhead]
    exact hstarts

/-! ## Templates -/

open Editor Merge

/-- A template is read, or it is refused with a syntax error, which an editor marks, or a number in
it has too many digits; then the template is refused without a place, and nothing is marked. -/
theorem refused_by_syntax_or_overlong (source : String) (r : Reader) :
    (∀ e, parse source = .error (.valueError e) ↔ OverlongAt source e) ∧
      ((∃ nodes, parse source = .ok nodes ∧
          Template.compile source = .ok ⟨Piece.ofNodes nodes, source⟩ ∧
          (diagnose r source).1 = .ok []) ∨
        (∃ e, parse source = .error (.syntaxError e) ∧
          Template.compile source = .error (.syntaxError e) ∧
          (diagnose r source).1 = .ok [.ofError source e]) ∨
        ∃ e, parse source = .error (.valueError e) ∧
          Template.compile source = .error (.valueError e) ∧
          (diagnose r source).1 = .error e) := by
  refine ⟨fun e => parse_eq_valueError_iff, ?_⟩
  have hanew : (r.parse source).1 = parse source := rfl
  unfold Template.compile diagnose
  generalize r.parse source = answer at hanew ⊢
  obtain ⟨result, r'⟩ := answer
  rw [← hanew]
  rcases result with (e | e) | nodes
  · exact .inr (.inl ⟨e, rfl, rfl, rfl⟩)
  · exact .inr (.inr ⟨e, rfl, rfl, rfl⟩)
  · exact .inl ⟨nodes, rfl, rfl, rfl⟩

/-- Zero is refused if it is spelled with too many digits. -/
theorem overlong_zero :
    let source := String.ofList
      ("\x7b@ if a=".toList ++ (List.replicate 4301 '0' ++ " @\x7d\x7b@ end if @\x7d".toList))
    parse source = .error (.valueError (.tooManyDigits ⟨4301⟩)) ∧
      ¬ ((∃ nodes, parse source = .ok nodes) ∨ ∃ e, parse source = .error (.syntaxError e)) := by
  intro source
  have hawaits : AwaitsLiteral "\x7b@ if a=".toList := by
    have htokens : tokenize "\x7b@ if a=" =
        .ok [⟨.openTag, 0, "\x7b@ "⟩, ⟨.keyword .ifWord, 3, "if"⟩, ⟨.blank, 5, " "⟩,
          ⟨.segment "a", 6, "a"⟩, ⟨.operator .equal, 7, "="⟩] :=
      tokenize_of_within 40 rfl
    exact awaitsLiteral_of_tokenize htokens rfl rfl
  have hstarts : StartsOverlong
      (List.replicate 4301 '0' ++ " @\x7d\x7b@ end if @\x7d".toList) 4301 := by
    refine ⟨[], List.replicate 4301 '0', _, rfl, by simp, ?_, List.length_replicate, by decide, ?_⟩
    · intro c hc
      rw [List.eq_of_mem_replicate hc]
      rfl
    · refine ⟨?_, rfl⟩
      rintro _ ⟨⟩
      exact ⟨rfl, by decide⟩
  have hparse : parse source = .error (.valueError (.tooManyDigits ⟨4301⟩)) :=
    parse_eq_valueError_iff.2 ⟨_, _, _, String.toList_ofList, hawaits, hstarts, rfl⟩
  refine ⟨hparse, ?_⟩
  rw [hparse]
  rintro (⟨nodes, h⟩ | ⟨e, h⟩)
  · cases h
  · cases h

end MailMerge.Markup
