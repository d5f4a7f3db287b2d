/-
The last tag of a template. A tag takes effect only with the token behind it, so at the end of a
template and in front of a fault of the scanner it has not taken effect: a block whose tag comes
last is not yet missed there, and an end tag of the wrong kind is not refused if no token can be cut
behind it.
-/
import Mathlib.Data.List.Basic
import MailMerge.Proofs.Markup.Nesting
import MailMerge.Proofs.Markup.Seam

namespace MailMerge.Markup

/-! ## Blocks left open -/

/-- The chunk is a tag that opens a block. -/
def Chunk.Opens (chunk : Chunk) : Prop :=
  ∃ tag, chunk.part = .tag (.opens tag)

/-- The report that the end tag of a block is missing. -/
def missingEnd (kind : BlockKind) (opened : Text.Place) : String :=
  s!"Missing '\x7b@ end {kind.word} @\x7d' for block opened at line {opened.line}, " ++
    s!"column {opened.column}"

/-- What is reported at the end of a template where these blocks are known to be open. -/
def endReason (source : String) : List (BlockKind × Nat) → String
  | [] => "Unexpected end of template"
  | (kind, opened) :: _ => missingEnd kind (Text.placeOf source opened)

theorem reason_unclosedBlock (kind : BlockKind) (opened : Text.Place) :
    (Fault.unclosedBlock kind opened).reason = missingEnd kind opened := by
  have hend : " @\x7d' for block opened at line " =
      " " ++ tagEnd ++ "' for block opened at line " := rfl
  show "Missing '\x7b@ end " ++ kind.word ++
      s!" {tagEnd}' for block opened at line {opened.line}, " ++ s!"column {opened.column}" =
    s!"Missing '\x7b@ end {kind.word} @\x7d' for block opened at line {opened.line}, " ++
      s!"column {opened.column}"
  rw [hend]
  simp only [toString, String.append_assoc]

theorem reason_unclosed (source : String) (frames : List Frame) :
    (Draft.unclosed source frames).reason = endReason source (Frame.tags frames) := by
  cases frames with
  | nil => rfl
  | cons frame frames => exact reason_unclosedBlock frame.tag.kind _

namespace Draft

/-- The last part of a template that leaves blocks open. The block of a tag that opens one does not
count yet. -/
theorem refused_left_open (chunk : Chunk) {frames : List Frame} {stack : List (BlockKind × Nat)}
    (nodes : List Node) (h : openTags (Frame.tags frames) [chunk] = some stack) (hstack : stack ≠ [])
    (source : String) :
    ∃ frames', (⟨frames, nodes, .content⟩ : Draft).pushAll chunk.tokens >>= finish source =
        .error (.fault (unclosed source frames') source.length) ∧
      (chunk.Opens → Frame.tags frames' = stack.tail) ∧
        (¬ chunk.Opens → Frame.tags frames' = stack) := by
  obtain ⟨part, tokens, hspelled⟩ := chunk
  have hclose : ∀ {frames : List Frame}, Frame.tags frames = stack → ∀ nodes,
      (⟨frames, nodes, .content⟩ : Draft).close source =
        .error (.fault (unclosed source frames) source.length) := by
    rintro frames rfl nodes
    refine if_neg ?_
    rintro rfl
    exact hstack rfl
  rcases part with value | e | ⟨tag | kind⟩
  · cases h
    refine ⟨frames, ?_, by simp [Chunk.Opens], fun _ => rfl⟩
    rw [pushAll_text hspelled]
    exact hclose rfl _
  · cases h
    refine ⟨frames, ?_, by simp [Chunk.Opens], fun _ => rfl⟩
    rw [pushAll_brackets hspelled]
    exact hclose rfl _
  · cases h
    have heffect : (TagEffect.opens tag).Spelled (tokens.map (·.kind)) := hspelled
    obtain ⟨bracket, -, hpush⟩ := pushAll_effect frames nodes heffect (by simp)
    refine ⟨frames, ?_, fun _ => rfl, fun hopens => (hopens ⟨tag, rfl⟩).elim⟩
    rw [hpush]
    rfl
  · simp only [openTags] at h
    split at h
    · rename_i hkind
      cases h
      obtain ⟨frame, outer, rfl, rfl⟩ :
          ∃ frame outer, frames = frame :: outer ∧ frame.tag.kind = kind := by
        cases frames <;> simp_all [Frame.tags]
      have heffect : (TagEffect.closes frame.tag.kind).Spelled (tokens.map (·.kind)) := hspelled
      obtain ⟨bracket, -, hpush⟩ := pushAll_effect (frame :: outer) nodes heffect (by simp)
      have hsettle : (⟨frame :: outer, nodes, .pending bracket.position (.closes frame.tag.kind)⟩ :
          Draft).settle = .ok ⟨outer, .block frame.tag nodes.reverse :: frame.before, .content⟩ := by
        simp [settle]
      refine ⟨outer, ?_, by simp [Chunk.Opens], fun _ => rfl⟩
      rw [hpush]
      show Draft.settle _ >>= close source = _
      rw [hsettle]
      exact hclose rfl _
    · cases h

end Draft

section

variable {source : String} {chunks : List Chunk} {stack : List (BlockKind × Nat)}
  (h : tokenize source = .ok (chunks.flatMap (·.tokens)))

include h

/-- A template that leaves blocks open is refused at its end, and the report names the innermost of
them. If the last tag opens a block and nothing stands behind it, the block around it is named
instead, or none if there is none. -/
theorem parse_left_open (hopen : openTags [] chunks = some stack) (hstack : stack ≠ []) :
    ∃ e, parse source = .error (.syntaxError e) ∧ e.position = source.length ∧
      ((∃ last ∈ chunks.getLast?, last.Opens) → e.reason = endReason source stack.tail) ∧
        ((¬ ∃ last ∈ chunks.getLast?, last.Opens) → e.reason = endReason source stack) := by
  rcases List.eq_nil_or_concat' chunks with rfl | ⟨before, last, rfl⟩
  · cases hopen
    exact (hstack rfl).elim
  rw [openTags_append] at hopen
  obtain ⟨outer, hbefore, hlast⟩ := Option.bind_eq_some_iff.1 hopen
  obtain ⟨frames, nodes, rfl, hreads⟩ := @Draft.reads_tags before [] outer [] hbefore
  obtain ⟨frames', hrefused, hopens, hother⟩ :=
    Draft.refused_left_open last nodes hlast hstack source
  have hnodes : nodesOf source ((before ++ [last]).flatMap (·.tokens)) =
      .error (.fault (Draft.unclosed source frames') source.length) := by
    unfold nodesOf
    rw [List.flatMap_append, List.flatMap_singleton, ← hrefused, Draft.empty,
      hreads.pushAll_append last.tokens_ne_nil]
  refine ⟨⟨Draft.unclosed source frames', source.length, Text.placeOf source source.length⟩, ?_, rfl,
    ?_, ?_⟩
  · rw [parse_of_tokenize h, hnodes]
    rfl
  · intro hlast
    rw [← hopens (by simpa using hlast)]
    exact reason_unclosed source frames'
  · intro hlast
    rw [← hother (by simpa using hlast)]
    exact reason_unclosed source frames'

end

/-- The tag of a conditional block at the start of a template. -/
def leadingIf : Chunk :=
  ⟨.tag (.opens (.conditional ⟨⟨[], "a"⟩, .equal, .text ""⟩)),
    [⟨.openTag, 0, "\x7b@ "⟩, ⟨.keyword .ifWord, 3, "if"⟩, ⟨.blank, 5, " "⟩,
      ⟨.segment "a", 6, "a"⟩, ⟨.operator .equal, 7, "="⟩, ⟨.literal (.text ""), 8, "\"\""⟩,
      ⟨.closeTag, 10, " @\x7d"⟩],
    ⟨_, rfl, [], .inl rfl, rfl⟩⟩

/-- A text behind the tag of a block makes it the block that is named. -/
theorem parse_left_open_inner :
    ∃ e, parse "\x7b@ if a=\"\" @\x7d\n\x7b@ for x in y @\x7dz" = .error (.syntaxError e) ∧
      e.position = 31 ∧
      e.reason = "Missing '\x7b@ end for @\x7d' for block opened at line 2, column 1" := by
  let gap : Chunk := ⟨.text "\n", [⟨.text "\n", 13, "\n"⟩], rfl⟩
  let inner : Chunk :=
    ⟨.tag (.opens (.loop ⟨"x", ⟨"y", none⟩, none, false⟩)),
      [⟨.openTag, 14, "\x7b@ "⟩, ⟨.keyword .forWord, 17, "for"⟩, ⟨.blank, 20, " "⟩,
        ⟨.segment "x", 21, "x"⟩, ⟨.blank, 22, " "⟩, ⟨.keyword .inWord, 23, "in"⟩, ⟨.blank, 25, " "⟩,
        ⟨.segment "y", 26, "y"⟩, ⟨.closeTag, 27, " @\x7d"⟩],
      ⟨_, rfl, rfl⟩⟩
  let inside : Chunk := ⟨.text "z", [⟨.text "z", 30, "z"⟩], rfl⟩
  have htokens : tokenize "\x7b@ if a=\"\" @\x7d\n\x7b@ for x in y @\x7dz" =
      .ok ([leadingIf, gap, inner, inside].flatMap (·.tokens)) :=
    tokenize_of_within 40 rfl
  have hopen : openTags [] [leadingIf, gap, inner, inside] = some [(.loop, 14), (.conditional, 0)] := rfl
  obtain ⟨e, he, hposition, -, hreason⟩ := parse_left_open htokens hopen (by simp)
  have hplace : Text.placeOf "\x7b@ if a=\"\" @\x7d\n\x7b@ for x in y @\x7dz" 14 = ⟨2, 1⟩ := rfl
  refine ⟨e, he, hposition, ?_⟩
  rw [hreason (by simp [inside, Chunk.Opens])]
  simp only [endReason, hplace]
  rfl

/-- A block that is opened at the very end of a template is not named. -/
theorem parse_left_open_last :
    ∃ (chunks : List Chunk) (e : SyntaxError),
      tokenize "\x7b@ if a=\"\" @\x7d" = .ok (chunks.flatMap (·.tokens)) ∧
      openTags [] chunks = some [(.conditional, 0)] ∧
      parse "\x7b@ if a=\"\" @\x7d" = .error (.syntaxError e) ∧
      e.reason = "Unexpected end of template" ∧
      e.reason ≠ "Missing '\x7b@ end if @\x7d' for block opened at line 1, column 1" := by
  have htokens : tokenize "\x7b@ if a=\"\" @\x7d" = .ok ([leadingIf].flatMap (·.tokens)) :=
    tokenize_of_within 40 rfl
  have hparse : parse "\x7b@ if a=\"\" @\x7d" =
      .error (.syntaxError ⟨.unexpectedEnd, 13, 1, 14⟩) :=
    parse_of_within 40 rfl
  have hreason : (⟨.unexpectedEnd, 13, 1, 14⟩ : SyntaxError).reason =
      "Unexpected end of template" := rfl
  refine ⟨[leadingIf], _, htokens, rfl, hparse, hreason, ?_⟩
  rw [hreason]
  decide

/-! ## End tags of the wrong kind -/

/-- What is wrong with plain text that starts with a backslash which escapes nothing. -/
def strayEscape? : List Char → Option Fault
  | ['\\'] => some .unfinishedEscape
  | '\\' :: c :: _ => if textUnits.escapable c then none else some (.invalidEscape c)
  | _ => none

theorem scan_of_strayEscape? {cs : List Char} {f : Fault} (h : strayEscape? cs = some f) :
    Mode.text.scan cs = .error (.fault f) := by
  unfold strayEscape? at h
  split at h
  · cases h
    rfl
  · rename_i c rest
    split at h
    · cases h
    · rename_i hc
      cases h
      have hspan : (textUnits.span ('\\' :: c :: rest)).1 = [] := by
        rw [Units.span, if_neg hc]
      have hrules : Mode.text.rules.findSome? (· ('\\' :: c :: rest)) = none := by
        simp [Mode.rules, Rule.opening, Rule.fixed, Rule.run, hspan]
      unfold Mode.scan
      rw [hrules]
      rfl
  · cases h

/-- Whatever else plain text starts with, a token can be cut there. -/
theorem scan_of_strayEscape?_eq_none {cs : List Char} (h : strayEscape? cs = none) (hne : cs ≠ []) :
    ∃ x, Mode.text.scan cs = .ok x := by
  suffices hrule : ∃ rule ∈ Mode.text.rules, (rule cs).isSome by
    obtain ⟨x, hx⟩ := Option.isSome_iff_exists.1 (List.findSome?_isSome_iff.2 hrule)
    exact ⟨x, Mode.scan_of_rules hx⟩
  by_cases hspan : (textUnits.span cs).1 = []
  · obtain ⟨c, cs, rfl⟩ := List.exists_cons_of_ne_nil hne
    by_cases hc : c = '\\'
    · -- A backslash that escapes something starts a unit.
      subst hc
      cases cs with
      | nil => cases h
      | cons d cs =>
        by_cases hd : textUnits.escapable d = true
        · simp [Units.span, hd] at hspan
        · simp [strayEscape?, hd] at h
    · have hplain : ¬ textUnits.plain c cs.head? = true := by
        intro hplain
        rw [Units.span] at hspan
        · simp [hc, hplain] at hspan
        · rintro _ _ rfl
          exact (hc rfl).elim
      -- What is not plain is a brace together with the character behind it.
      have hbracket : c = '{' ∧ (cs.head? = some '{' ∨ cs.head? = some '@') := by
        simpa [textUnits, or_iff_not_imp_left] using hplain
      obtain ⟨rfl, hhead | hhead⟩ := hbracket
      · obtain ⟨cs, rfl⟩ := List.head?_eq_some_iff.1 hhead
        exact ⟨_, List.mem_cons_self, by simp [Rule.opening, Rule.fixed]⟩
      · obtain ⟨cs, rfl⟩ := List.head?_eq_some_iff.1 hhead
        exact ⟨_, List.mem_cons_of_mem _ List.mem_cons_self, by simp [Rule.opening, Rule.fixed]⟩
  · have hrun : ∀ kind, (Rule.run textUnits kind cs).isSome := by
      intro kind
      simp [Rule.run, hspan]
    exact ⟨_, List.mem_cons_of_mem _ (List.mem_cons_of_mem _ List.mem_cons_self), hrun _⟩

/-- Behind an end tag of the wrong kind the reading stops, whatever follows. -/
theorem readNodes_mismatched {frame : Frame} {outer : List Frame} {nodes : List Node} {n : Nat}
    {kind : BlockKind} (h : frame.tag.kind ≠ kind) (source : String) (c : Cursor)
    (hmode : c.mode = .text) :
    (⟨source, c, ⟨frame :: outer, nodes, .pending n (.closes kind)⟩⟩ : Reader).readNodes.1 =
      match strayEscape? c.rest with
      | some f => .error (.fault f c.position)
      | none => .error (.fault (.mismatchedEndTag frame.tag.kind kind) n) := by
  have hsettle := @Draft.settle_mismatched frame outer nodes n kind h
  obtain ⟨mode, position, rest⟩ := c
  simp only at hmode
  subst hmode
  by_cases hrest : rest = []
  · subst hrest
    have hstep : Cursor.step ⟨.text, position, []⟩ = .finished ⟨.text, position, []⟩ := rfl
    rw [Reader.readNodes_finished hstep]
    exact Draft.refused_of_settle hsettle source []
  · cases hescape : strayEscape? rest with
    | some f =>
      have hstep : Cursor.step ⟨.text, position, rest⟩ =
          .fault (.fault f) ⟨.text, position, rest⟩ := by
        simp [Cursor.step, Cursor.skipLayout, hrest, scan_of_strayEscape? hescape]
      rw [Reader.readNodes_fault hstep]
      rfl
    | none =>
      obtain ⟨x, hscan⟩ := scan_of_strayEscape?_eq_none hescape hrest
      have hstep : ∃ t next, Cursor.step ⟨.text, position, rest⟩ = .token t next := by
        simp [Cursor.step, Cursor.skipLayout, hrest, hscan]
      obtain ⟨t, next, hstep⟩ := hstep
      rw [Reader.readNodes_token hstep]
      show Draft.push _ t >>= _ = _
      unfold Draft.push
      rw [hsettle]
      rfl

/-- An end tag of the wrong kind at the end of a template is reported at its bracket, whatever is
appended, unless that starts with a backslash that escapes nothing: then this is reported. -/
theorem parse_mismatched_end {source : String} {before : List Chunk} {ending : Chunk}
    {innermost kind : BlockKind} {outer : List BlockKind}
    (h : tokenize source = .ok ((before ++ [ending]).flatMap (·.tokens)))
    (hbefore : openBlocks [] (before.map (·.part)) = some (innermost :: outer))
    (hending : ending.part = .tag (.closes kind)) (hkind : kind ≠ innermost) (more : String) :
    ∃ e, parse (source ++ more) = .error (.syntaxError e) ∧
      (strayEscape? more.toList = none →
        e.reason =
          s!"Mismatched end tag: expected 'end {innermost.word}' but found 'end {kind.word}'" ∧
          e.position = ending.offset) ∧
      ∀ f, strayEscape? more.toList = some f → e.fault = f ∧ e.position = source.length := by
  obtain ⟨frames, nodes, hframes, hreads⟩ := @Draft.reads_chunks before [] _ [] hbefore
  obtain ⟨frame, frames, rfl, rfl, -⟩ := List.map_eq_cons_iff.1 hframes
  have heffect : (TagEffect.closes kind).Spelled (ending.tokens.map (·.kind)) := by
    have := ending.spelled
    rwa [hending] at this
  obtain ⟨bracket, hbracket, hpush⟩ := Draft.pushAll_effect (frame :: frames) nodes heffect (by simp)
  have hoffset : ending.offset = bracket.position := by
    simp [Chunk.offset, Option.mem_def.1 hbracket]
  have hpush : Draft.empty.pushAll ((before ++ [ending]).flatMap (·.tokens)) =
      .ok ⟨frame :: frames, nodes, .pending bracket.position (.closes kind)⟩ := by
    rw [List.flatMap_append, List.flatMap_singleton, Draft.empty,
      hreads.pushAll_append ending.tokens_ne_nil, hpush]
  have hleads := (reached_of_tokenize h hpush rfl).leads (by simp)
  have hyields := hleads.yields more.toList trivial
  have hstart : Cursor.start (source ++ more) = ⟨.text, 0, source.toList ++ more.toList⟩ := by
    rw [Cursor.start, String.toList_append]
  rw [← hstart] at hyields
  rw [parse_eq_readSource, readSource, hyields.readNodes hpush,
    readNodes_mismatched (Ne.symm hkind) _ _ rfl, hoffset]
  simp only [String.length_toList]
  cases strayEscape? more.toList with
  | some f =>
    refine ⟨_, rfl, by simp, ?_⟩
    rintro _ ⟨⟩
    exact ⟨rfl, rfl⟩
  | none => exact ⟨_, rfl, fun _ => ⟨rfl, rfl⟩, by simp⟩

/-- The end tag of a loop. -/
def loopEnd (n : Nat) : Chunk :=
  ⟨.tag (.closes .loop),
    [⟨.openTag, n, "\x7b@ "⟩, ⟨.keyword .endWord, n + 3, "end"⟩, ⟨.blank, n + 6, " "⟩,
      ⟨.keyword .forWord, n + 7, "for"⟩, ⟨.closeTag, n + 10, " @\x7d"⟩],
    rfl⟩

/-- A bracket that is not closed does not hide the end tag in front of it. -/
theorem parse_mismatched_end_bracket :
    ∃ e, parse ("\x7b@ if a=\"\" @\x7d\x7b@ end for @\x7d" ++ "\x7b@ if") = .error (.syntaxError e) ∧
      e.reason = "Mismatched end tag: expected 'end if' but found 'end for'" ∧ e.position = 13 := by
  have htokens : tokenize "\x7b@ if a=\"\" @\x7d\x7b@ end for @\x7d" =
      .ok (([leadingIf] ++ [loopEnd 13]).flatMap (·.tokens)) :=
    tokenize_of_within 40 rfl
  obtain ⟨e, he, hreported, -⟩ := parse_mismatched_end htokens rfl rfl (by decide) "\x7b@ if"
  exact ⟨e, he, hreported rfl⟩

/-- A backslash that escapes nothing hides the end tag in front of it. -/
theorem parse_mismatched_end_escape :
    (∃ (before : List Chunk) (ending : Chunk),
      tokenize "\x7b@ if a=\"\" @\x7d\x7b@ end for @\x7d" =
        .ok ((before ++ [ending]).flatMap (·.tokens)) ∧
      openBlocks [] (before.map (·.part)) = some [.conditional] ∧
      ending.part = .tag (.closes .loop) ∧ ending.offset = 13) ∧
    ∃ e, parse ("\x7b@ if a=\"\" @\x7d\x7b@ end for @\x7d" ++ "\\x") = .error (.syntaxError e) ∧
      e.reason = "Invalid escape sequence '\\x'" ∧ e.position = 26 := by
  have htokens : tokenize "\x7b@ if a=\"\" @\x7d\x7b@ end for @\x7d" =
      .ok (([leadingIf] ++ [loopEnd 13]).flatMap (·.tokens)) :=
    tokenize_of_within 40 rfl
  have hparse : parse ("\x7b@ if a=\"\" @\x7d\x7b@ end for @\x7d" ++ "\\x") =
      .error (.syntaxError ⟨.invalidEscape 'x', 26, 1, 27⟩) :=
    parse_of_within 40 rfl
  exact ⟨⟨[leadingIf], loopEnd 13, htokens, rfl, rfl, rfl⟩, _, hparse, rfl, rfl⟩

end MailMerge.Markup
