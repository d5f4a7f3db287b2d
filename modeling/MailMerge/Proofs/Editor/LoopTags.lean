/-
The loops of a template, as an editor finds them in its text and as they are read. Both agree on every
template in which the names of loops are spelled plainly and each in one way, and in which nothing in a
text or in quotes looks like a loop tag; elsewhere nothing can.
-/
import Mathlib.Tactic.FinCases
import Mathlib.Tactic.IntervalCases
import MailMerge.Markup.Rename
import MailMerge.Proofs.Editor.Passing
import MailMerge.Proofs.List
import MailMerge.Proofs.Markup.Refusals

namespace MailMerge.Editor

open MailMerge.Markup MailMerge.Text

variable {source name : String} {c c' next : Cursor} {t : Token} {tokens : List Token} {mode : Mode}
  {kind : TokenKind} {kinds : List TokenKind} {w : List Char}

/-! ## Names as they are read -/

/-- A name as it is read: without backticks, and with its escapes resolved. -/
def resolved (name : String) : String :=
  String.ofList (unescape (match name.toList with
    | '\x60' :: rest => rest.dropLast
    | cs => cs))

/-- The name of a segment is what its spelling reads as. -/
theorem resolved_of_segmentShape (h : Bracket.tag.Shape (.segment name) w) :
    resolved (String.ofList w) = name := by
  obtain ⟨inside, ⟨rfl, hquote⟩ | rfl, rfl⟩ := h.name_spelled
  · unfold resolved
    rw [String.toList_ofList]
    split
    · simp at hquote
    · rfl
  · simp [resolved]

theorem ne_nil_of_segmentShape (h : Bracket.tag.Shape (.segment name) w) : w ≠ [] := by
  obtain ⟨_, _, rfl, -⟩ := h.startsWord (by simp [Bracket.close])
  simp

/-- The token stands behind the words of a loop tag, where it names the loop. -/
def NamesLoop (tokens : List Token) (t : Token) : Prop :=
  ∃ lead other name, lead ++ [t] <:+: tokens ∧
    (lead ++ [t]).map (·.kind) = .keyword .forWord :: .blank :: nameTokens other name

/-- What an editor finds in a text is told by its tokens: nothing is found in a text or in quotes, and
names of loops are found as they are spelled, each in one way. -/
structure Legible (source : String) (tokens : List Token) : Prop where
  clear : ∀ t ∈ tokens, t.kind.Verbatim t.spelling.toList → Clear source t
  plain : ∀ t, NamesLoop tokens t → PlainName t.spelling.toList
  alike : ∀ t t', NamesLoop tokens t → NamesLoop tokens t' →
    resolved t.spelling = resolved t'.spelling → t.spelling = t'.spelling

theorem NamesLoop.mono {more : List Token} (h : NamesLoop tokens t) (hmore : tokens <:+: more) :
    NamesLoop more t := by
  obtain ⟨lead, other, name, hlead, hkinds⟩ := h
  exact ⟨lead, other, name, hlead.trans hmore, hkinds⟩

theorem NamesLoop.segment (h : NamesLoop tokens t) : t ∈ tokens ∧ ∃ name, t.kind = .segment name := by
  obtain ⟨lead, other, name, hlead, hkinds⟩ := h
  refine ⟨hlead.subset (by simp), name, ?_⟩
  have hlast := congrArg List.getLast? hkinds
  cases other <;> simpa [nameTokens] using hlast

theorem Legible.mono {more : List Token} (h : Legible source more) (hmore : tokens <:+: more) :
    Legible source tokens where
  clear t ht := h.clear t (hmore.subset ht)
  plain t ht := h.plain t (ht.mono hmore)
  alike t t' ht ht' := h.alike t t' (ht.mono hmore) (ht'.mono hmore)

theorem Legible.split {more : List Token} (h : Legible source (tokens ++ more)) :
    Legible source tokens ∧ Legible source more := by
  constructor
  · exact h.mono (List.prefix_append tokens more).isInfix
  · exact h.mono (List.suffix_append tokens more).isInfix

/-! ## Tags -/

/-- A block tag opens in a text. -/
theorem eq_of_openTagShape (h : mode.Shape .openTag w) :
    mode = .text ∧ ∃ blanks, (∀ d ∈ blanks, isBlank d = true) ∧ w = '{' :: '@' :: blanks := by
  generalize hkind : TokenKind.openTag = kind at h
  cases mode with
  | text =>
    cases h with
    | @opening b blanks hblanks =>
      cases b with
      | expansion => cases hkind
      | tag => exact ⟨rfl, blanks, hblanks, rfl⟩
    | text _ _ => cases hkind
  | expansion => exact ((Bracket.spelling_of_shape (b := .expansion) h).2.2 hkind.symm).elim
  | tag => exact ((Bracket.spelling_of_shape (b := .tag) h).2.2 hkind.symm).elim
  | literal =>
    subst hkind
    cases h

/-- The opening of a block tag, up to its first word. -/
theorem step_openTag (hstep : c.step = .token t next) (hopen : t.kind = .openTag) :
    ∃ blanks, (∀ d ∈ blanks, isBlank d = true) ∧ c.rest = '{' :: '@' :: (blanks ++ next.rest) ∧
      next.mode = .tag := by
  obtain ⟨layout, w, hrest, -, hskips, hscan, -, hnext⟩ := Cursor.step_eq_token_cases hstep
  rw [hopen] at hscan hnext
  obtain ⟨hmode, blanks, hblanks, rfl⟩ := eq_of_openTagShape (Mode.shape_of_scan hscan)
  refine ⟨blanks, hblanks, ?_, congrArg Cursor.mode hnext⟩
  rw [hrest, hskips (by rw [hmode]; decide)]
  rfl

/-- In a tag without a loop nothing is found outside of quotes. -/
theorem tag_passed {k : Keyword} (hk : k ≠ .forWord) (h : Inside .tag (.keyword k :: kinds))
    (hkinds : tokens.map (·.kind) = .openTag :: .keyword k :: kinds) (hyields : c.Yields tokens c')
    (hat : At source c)
    (hclear : ∀ t ∈ tokens, t.kind.Verbatim t.spelling.toList → Clear source t) :
    loopNamesIn c.rest = loopNamesIn c'.rest := by
  obtain ⟨t, tokens, rfl, hopen, hkinds⟩ := List.map_eq_cons_iff.1 hkinds
  cases hyields with
  | @cons _ next _ _ _ hstep hyields =>
    obtain ⟨blanks, hblanks, hrest, hmode⟩ := step_openTag hstep hopen
    have hpassed : loopNamesIn next.rest = loopNamesIn c'.rest := by
      refine Inside.passed (b := .tag) (by rwa [hkinds]) hyields (.inl hmode) (hat.step hstep) ?_
      exact fun t ht => hclear t (List.mem_cons_of_mem _ ht)
    rw [← hpassed, hrest]
    -- The bracket is followed by another word than `for`.
    have hfor : ¬['f', 'o', 'r'] <+: dropBlanks (blanks ++ next.rest) := by
      obtain ⟨t', tokens, rfl, hword, -⟩ := List.map_eq_cons_iff.1 hkinds
      cases hyields with
      | @cons _ next' _ _ _ hstep' _ =>
        obtain ⟨hrest', hshape, -, -⟩ := Cursor.step_bracket (b := .tag) hstep' hmode
        rw [hword] at hshape
        have hstart := (startsWord_keyword k).append next'.rest
        rw [dropBlanks_append hblanks, hrest', hshape.eq_word, hstart.blanks.2]
        cases k with
        | forWord => exact (hk rfl).elim
        | otherWord | inWord | whereWord | ifWord | endWord => simp [Keyword.word]
    have hquiet : Quiet ('{' :: '@' :: blanks) next.rest := by
      refine quiet_cons (loopName?_other_word hfor) (quiet_of_notMem ?_)
      simp [notMem_of_isBlank hblanks]
    exact loopNamesIn_append hquiet

/-! ## Loops -/

/-- White space and the word `in` stand behind a name. -/
def NameIn (w cs more : List Char) : Prop :=
  ∃ gap, gap ≠ [] ∧ (∀ d ∈ gap, isBlank d = true) ∧ cs = w ++ (gap ++ ('i' :: 'n' :: more)) ∧
    ∀ d ∈ more.head?, isBlank d = true

/-- One step in a block tag that stays in it. -/
theorem yields_inTag (hyields : c.Yields tokens c') (hmode : c.mode = .tag) (hat : At source c)
    (hkinds : tokens.map (·.kind) = kind :: kinds) (hafter : Mode.tag.after kind = .tag) :
    ∃ t next more, tokens = t :: more ∧ t.kind = kind ∧ more.map (·.kind) = kinds ∧
      c.rest = t.spelling.toList ++ next.rest ∧ Bracket.tag.Shape kind t.spelling.toList ∧
      next.Yields more c' ∧ next.mode = .tag ∧ At source next := by
  obtain ⟨t, more, rfl, rfl, rfl⟩ := List.map_eq_cons_iff.1 hkinds
  cases hyields with
  | @cons _ next _ _ _ hstep hyields =>
    obtain ⟨hrest, hshape, hnext, -⟩ := Cursor.step_bracket (b := .tag) hstep hmode
    exact ⟨t, next, more, rfl, rfl, rfl, hrest, hshape, hyields, hnext.trans hafter, hat.step hstep⟩

/-- The name of a loop, up to the word `in`. -/
theorem yields_name (hyields : c.Yields tokens c') (hmode : c.mode = .tag) (hat : At source c)
    (hkinds : tokens.map (·.kind) =
      .segment name :: .blank :: .keyword .inWord :: .blank :: kinds) :
    ∃ t next back more, tokens = t :: (back ++ more) ∧ t.kind = .segment name ∧
      Bracket.tag.Shape (.segment name) t.spelling.toList ∧ more.map (·.kind) = .blank :: kinds ∧
      NameIn t.spelling.toList c.rest next.rest ∧ next.Yields more c' ∧ next.mode = .tag ∧
      At source next := by
  obtain ⟨t, c₁, more, rfl, hkind, hkinds, hrest, hshape, hyields, hmode, hat⟩ :=
    yields_inTag hyields hmode hat hkinds rfl
  obtain ⟨gap, c₂, more, rfl, -, hkinds, hrest₁, hgap, hyields, hmode, hat⟩ :=
    yields_inTag hyields hmode hat hkinds rfl
  obtain ⟨word, c₃, more, rfl, -, hkinds, hrest₂, hword, hyields, hmode, hat⟩ :=
    yields_inTag hyields hmode hat hkinds rfl
  obtain ⟨blank, c₄, more', rfl, -, -, hrest₃, hblank, -⟩ :=
    yields_inTag hyields hmode hat hkinds rfl
  obtain ⟨hne, hblanks⟩ := (Bracket.spelling_of_shape hgap).1 rfl
  refine ⟨t, c₃, [gap, word], blank :: more', rfl, hkind, hshape, hkinds,
    ⟨gap.spelling.toList, hne, hblanks, ?_, ?_⟩, hyields, hmode, hat⟩
  · rw [hrest, hrest₁, hrest₂, hword.eq_word]
    rfl
  · obtain ⟨hne, hblanks⟩ := (Bracket.spelling_of_shape hblank).1 rfl
    obtain ⟨d, w, hw⟩ := List.exists_cons_of_ne_nil hne
    rw [hrest₃, hw]
    rintro _ ⟨⟩
    exact hblanks d (by rw [hw]; exact List.mem_cons_self)

theorem NameIn.head {more cs : List Char} (h : NameIn w cs more) (hplain : PlainName w)
    (hne : w ≠ []) : ∀ d ∈ cs.head?, isBlank d = false := by
  obtain ⟨gap, -, -, rfl, -⟩ := h
  exact hplain.head hne _

/-- The name with the word `other`, if it is there, up to the word `in`. What is found behind the word
`for` is this name. -/
theorem yields_nameTokens {other : Bool} (hyields : c.Yields tokens c') (hmode : c.mode = .tag)
    (hat : At source c) (hkinds : tokens.map (·.kind) =
      nameTokens other name ++ (.blank :: .keyword .inWord :: .blank :: kinds)) :
    ∃ lead t back next more, tokens = lead ++ t :: (back ++ more) ∧
      (lead ++ [t]).map (·.kind) = nameTokens other name ∧ more.map (·.kind) = .blank :: kinds ∧
      Bracket.tag.Shape (.segment name) t.spelling.toList ∧
      (PlainName t.spelling.toList → (∀ d ∈ c.rest.head?, isBlank d = false) ∧
        ∀ cs, afterFor? cs = some c.rest → loopName? cs = some (t.spelling.toList, next.rest)) ∧
      next.Yields more c' ∧ next.mode = .tag ∧ At source next := by
  cases other with
  | false =>
    obtain ⟨t, next, back, more, rfl, hkind, hshape, hmore, hin, hyields, hmode, hat⟩ :=
      yields_name hyields hmode hat hkinds
    have hne := ne_nil_of_segmentShape hshape
    refine ⟨[], t, back, next, more, rfl, by simp [hkind, nameTokens], hmore, hshape, fun hplain =>
      ⟨hin.head hplain hne, fun cs hfor => ?_⟩, hyields, hmode, hat⟩
    obtain ⟨gap, hgap, hgaps, hrest, hnext⟩ := hin
    rw [hrest] at hfor
    -- A name that is spelled `other` would be the keyword.
    have hother := ne_word_of_segmentShape hshape .otherWord
    exact loopName?_tag hplain hne hgap hgaps hnext hfor hother
  | true =>
    obtain ⟨word, c₁, _, rfl, hother, hkinds, hrest, hword, hyields, hmode, hat⟩ :=
      yields_inTag hyields hmode hat hkinds rfl
    obtain ⟨blank, c₂, _, rfl, hkind', hkinds, hrest', hblank, hyields, hmode, hat⟩ :=
      yields_inTag hyields hmode hat hkinds rfl
    obtain ⟨hne, hblanks⟩ := (Bracket.spelling_of_shape hblank).1 rfl
    obtain ⟨t, next, back, more, rfl, hkind, hshape, hmore, hin, hyields, hmode, hat⟩ :=
      yields_name hyields hmode hat hkinds
    rw [hrest, hrest', hword.eq_word]
    refine ⟨[word, blank], t, back, next, more, rfl, ?_, hmore, hshape, fun hplain => ⟨?_, fun cs hfor =>
      ?_⟩, hyields, hmode, hat⟩
    · simp [hother, hkind', hkind, nameTokens]
    · rintro _ ⟨⟩
      rfl
    · -- The name is looked for behind the word `other` first.
      obtain ⟨gap, hgap, hgaps, hrest, hnext⟩ := hin
      rw [hrest] at hfor
      exact loopName?_tag_other hplain (ne_nil_of_segmentShape hshape) hgap hgaps hnext hne hblanks hfor

/-! ## What is found -/

/-- The names that an editor finds between two places, in tokens that spell loops of these names. -/
def Finds (tokens : List Token) (c c' : Cursor) (names : List String) : Prop :=
  ∃ found, loopNamesIn c.rest = found ++ loopNamesIn c'.rest ∧
    found.map (fun w => resolved (String.ofList w)) = names ∧
    ∀ w ∈ found, ∃ t, NamesLoop tokens t ∧ t.spelling.toList = w

theorem Finds.of_passed (h : loopNamesIn c.rest = loopNamesIn c'.rest) : Finds tokens c c' [] :=
  ⟨[], h, rfl, by simp⟩

theorem Finds.append {more : List Token} {c'' : Cursor} {names names' : List String}
    (h : Finds tokens c c' names) (hmore : Finds more c' c'' names') :
    Finds (tokens ++ more) c c'' (names ++ names') := by
  obtain ⟨found, hfound, rfl, hspelled⟩ := h
  obtain ⟨found', hfound', rfl, hspelled'⟩ := hmore
  refine ⟨found ++ found', ?_, List.map_append, fun w hw => ?_⟩
  · rw [hfound, hfound', List.append_assoc]
  · rcases List.mem_append.1 hw with hw | hw
    · obtain ⟨t, ht, rfl⟩ := hspelled w hw
      exact ⟨t, ht.mono (List.prefix_append tokens more).isInfix, rfl⟩
    · obtain ⟨t, ht, rfl⟩ := hspelled' w hw
      exact ⟨t, ht.mono (List.suffix_append tokens more).isInfix, rfl⟩

/-- A loop is found with the name in its tag, and nothing else in this tag. -/
theorem finds_loopTag (other : Bool) (h : Inside .tag (.blank :: kinds))
    (hkinds : tokens.map (·.kind) = .openTag :: .keyword .forWord :: .blank ::
      (nameTokens other name ++ (.blank :: .keyword .inWord :: .blank :: kinds)))
    (hyields : c.Yields tokens c') (hat : At source c) (hlegible : Legible source tokens) :
    Finds tokens c c' [name] := by
  obtain ⟨bracket, tokens, rfl, hopen, hkinds⟩ := List.map_eq_cons_iff.1 hkinds
  cases hyields with
  | @cons _ next _ _ _ hstep hyields =>
    obtain ⟨blanks, hblanks, hrest, hmode⟩ := step_openTag hstep hopen
    obtain ⟨word, c₁, _, rfl, hfor, hkinds, hrest₁, hword, hyields, hmode, hat⟩ :=
      yields_inTag hyields hmode (hat.step hstep) hkinds rfl
    obtain ⟨gap, c₂, _, rfl, hgap, hkinds, hrest₂, hshape, hyields, hmode, hat⟩ :=
      yields_inTag hyields hmode hat hkinds rfl
    obtain ⟨hne, hgaps⟩ := (Bracket.spelling_of_shape hshape).1 rfl
    obtain ⟨lead, t, back, c₃, more, rfl, hlead, hmore, hsegment, hfound, hyields, hmode, hat⟩ :=
      yields_nameTokens hyields hmode hat hkinds
    have hnames : NamesLoop (bracket :: word :: gap :: (lead ++ t :: (back ++ more))) t := by
      refine ⟨word :: gap :: lead, other, name, ⟨[bracket], back ++ more, by simp⟩, ?_⟩
      rw [List.cons_append, List.cons_append, List.map_cons, List.map_cons, hfor, hgap, hlead]
    obtain ⟨hhead, hfound⟩ := hfound (hlegible.plain t hnames)
    have hafter : afterFor? c.rest = some c₂.rest := by
      rw [hrest, hrest₁, hrest₂, hword.eq_word]
      exact afterFor?_tag hblanks hne hgaps hhead
    have hpassed : loopNamesIn c₃.rest = loopNamesIn c'.rest := by
      refine Inside.passed (b := .tag) (by rwa [hmore]) hyields (.inl hmode) hat fun t' ht' => ?_
      exact hlegible.clear t' (by simp [ht'])
    refine ⟨[t.spelling.toList], ?_, ?_, by simpa using ⟨t, hnames, rfl⟩⟩
    · rw [loopNamesIn_of_found (hfound c.rest hafter), hpassed]
      rfl
    · exact congrArg ([·]) (resolved_of_segmentShape hsegment)

theorem loopHead_cases {head : LoopHead} (h : head.Spelled kinds) :
    ∃ rest, kinds = loopTokens head.other head.name ++ rest ∧ Inside .tag (rest ++ [.closeTag]) := by
  unfold LoopHead.Spelled at h
  split at h
  · exact ⟨head.lookup.tokens, h, Inside.lookup _ .close⟩
  · obtain ⟨condition, hcondition, rfl⟩ := h
    have hwhere : Inside .tag (.blank :: .keyword .whereWord :: .blank ::
        (condition ++ [.closeTag])) :=
      .inner rfl (.inner (by simp [Inner]) (.inner rfl (Inside.comparison hcondition .close)))
    refine ⟨head.lookup.tokens ++ (.blank :: .keyword .whereWord :: .blank :: condition), ?_, ?_⟩
    · simp
    · rw [List.append_assoc]
      exact Inside.lookup _ hwhere

/-- A tag that opens a block shows the name of the loop, if it opens one. -/
theorem finds_tag {tag : Tag} (h : tag.Spelled (tokens.map (·.kind))) (hyields : c.Yields tokens c')
    (hat : At source c) (hlegible : Legible source tokens) :
    Finds tokens c c' (Node.block tag []).loopNames := by
  obtain ⟨kinds, hkinds, hhead⟩ := h
  cases tag with
  | conditional test =>
    have hinside : Inside .tag (.keyword .ifWord :: .blank :: (kinds ++ [.closeTag])) :=
      .inner (by simp [Inner]) (.inner rfl (Inside.comparison hhead .close))
    rw [Node.loopNames, Node.loopNamesIn]
    exact .of_passed (tag_passed (by decide) hinside hkinds hyields hat hlegible.clear)
  | loop head =>
    obtain ⟨rest, rfl, hinside⟩ := loopHead_cases hhead
    have hblank : Inside .tag (.blank :: (rest ++ [.closeTag])) := .inner rfl hinside
    rw [Node.loopNames, Node.loopNamesIn]
    refine finds_loopTag head.other hblank ?_ hyields hat hlegible
    rw [hkinds]
    simp [loopTokens, Tag.kind, BlockKind.keyword]

theorem finds_end {k : BlockKind} (h : tokens.map (·.kind) = k.endSpelling)
    (hyields : c.Yields tokens c') (hat : At source c) (hlegible : Legible source tokens) :
    Finds tokens c c' [] := by
  have hinside : Inside .tag [.keyword .endWord, .blank, .keyword k.keyword, .closeTag] :=
    .inner (by simp [Inner]) (.inner rfl (.ended k.keyword))
  exact .of_passed (tag_passed (by decide) hinside h hyields hat hlegible.clear)

theorem finds_expansion {e : Expansion}
    (h : tokens.map (·.kind) = .openExpansion :: e.tokens ++ [.closeExpansion])
    (hyields : c.Yields tokens c') (hat : At source c) (hlegible : Legible source tokens) :
    Finds tokens c c' [] := by
  have hinside : Inside .expansion (e.tokens ++ [.closeExpansion]) := Inside.expansion e .close
  obtain ⟨t, tokens, rfl, hopen, hkinds⟩ := List.map_eq_cons_iff.1 h
  cases hyields with
  | @cons _ next _ _ _ hstep hyields =>
    have hmode : InBracket .expansion next.mode := by
      obtain ⟨_, _, -, -, -, -, -, hnext⟩ := Cursor.step_eq_token_cases hstep
      rw [hnext, hopen]
      exact .inl rfl
    replace hinside : Inside .expansion (tokens.map (·.kind)) := by
      rw [hkinds]
      exact hinside
    refine .of_passed ?_
    rw [step_passed hstep hat (by simp [hopen]) (hlegible.clear t List.mem_cons_self) fun _ =>
      hinside.inert hyields hmode]
    refine hinside.passed hyields hmode (hat.step hstep) fun t ht => ?_
    exact hlegible.clear t (List.mem_cons_of_mem _ ht)

theorem finds_text {value : String} (h : tokens.map (·.kind) = [.text value])
    (hyields : c.Yields tokens c') (hat : At source c) (hlegible : Legible source tokens) :
    Finds tokens c c' [] := by
  obtain ⟨t, rfl, hkind⟩ := List.map_eq_singleton_iff.1 h
  cases hyields with
  | cons hstep hyields =>
    cases hyields
    have hclear := hlegible.clear t List.mem_cons_self (by rw [hkind]; trivial)
    exact .of_passed (loopNamesIn_step hstep (hclear.quiet hat hstep))

theorem At.yields (h : At source c) (hyields : c.Yields tokens c') : At source c' := by
  induction hyields with
  | nil => exact h
  | cons hstep _ ih => exact ih (h.step hstep)

theorem loopNames_block (tag : Tag) (body : List Node) :
    (Node.block tag body).loopNames = (Node.block tag []).loopNames ++ Node.loopNamesIn body := by
  cases tag <;> simp [Node.loopNames, Node.loopNamesIn]

mutual

/-- A node shows the names of its loops, that of a tag in front of those in its body. -/
theorem finds_node : ∀ {node : Node} {tokens : List Token} {c c' : Cursor},
    node.Spelled (tokens.map (·.kind)) → c.Yields tokens c' → At source c → Legible source tokens →
      Finds tokens c c' node.loopNames
  | .text value, tokens, c, c', h, hyields, hat, hlegible => by
    rw [Node.Spelled] at h
    rw [Node.loopNames]
    exact finds_text h hyields hat hlegible
  | .expansion e, tokens, c, c', h, hyields, hat, hlegible => by
    rw [Node.Spelled] at h
    rw [Node.loopNames]
    exact finds_expansion h hyields hat hlegible
  | .block tag body, tokens, c, c', h, hyields, hat, hlegible => by
    rw [Node.Spelled] at h
    obtain ⟨head, inside, hhead, hinside, hkinds⟩ := h
    obtain ⟨front, last, rfl, hfront, hlast⟩ := List.map_eq_append_iff.1 hkinds
    obtain ⟨first, middle, rfl, rfl, rfl⟩ := List.map_eq_append_iff.1 hfront
    obtain ⟨c₂, hyields, hyields₂⟩ := hyields.split
    obtain ⟨c₁, hyields₀, hyields₁⟩ := hyields.split
    obtain ⟨hlegible, hlegible₂⟩ := hlegible.split
    obtain ⟨hlegible₀, hlegible₁⟩ := hlegible.split
    have htag := finds_tag hhead hyields₀ hat hlegible₀
    have hbody := finds_nodes hinside hyields₁ (hat.yields hyields₀) hlegible₁
    have hend := finds_end hlast hyields₂ (hat.yields hyields) hlegible₂
    have hblock := (htag.append hbody).append hend
    rwa [List.append_nil, ← loopNames_block] at hblock

theorem finds_nodes : ∀ {nodes : List Node} {tokens : List Token} {c c' : Cursor},
    Node.AllSpelled nodes (tokens.map (·.kind)) → c.Yields tokens c' → At source c →
      Legible source tokens → Finds tokens c c' (Node.loopNamesIn nodes)
  | [], tokens, c, c', h, hyields, hat, hlegible => by
    rw [Node.AllSpelled, List.map_eq_nil_iff] at h
    subst h
    cases hyields
    rw [Node.loopNamesIn]
    exact .of_passed rfl
  | node :: nodes, tokens, c, c', h, hyields, hat, hlegible => by
    rw [Node.AllSpelled] at h
    obtain ⟨first, rest, hfirst, hrest, hkinds⟩ := h
    obtain ⟨front, back, rfl, rfl, rfl⟩ := List.map_eq_append_iff.1 hkinds
    obtain ⟨c₁, hyields₀, hyields₁⟩ := hyields.split
    obtain ⟨hlegible₀, hlegible₁⟩ := hlegible.split
    rw [Node.loopNamesIn]
    exact (finds_node hfirst hyields₀ hat hlegible₀).append
      (finds_nodes hrest hyields₁ (hat.yields hyields₀) hlegible₁)

end

/-- The names that an editor offers are those of the loops of the template, in the order of their tags
and without repeats, where its text tells its tokens. -/
theorem map_resolved_loopNames {nodes : List Node} (hparse : parse source = .ok nodes)
    (htokens : tokenize source = .ok tokens) (hlegible : Legible source tokens) :
    (loopNames source).map resolved = (Node.loopNamesIn nodes).eraseDups := by
  obtain ⟨c, final, hyields, hend⟩ := yields_of_tokenize htokens
  obtain ⟨tokens', htokens', hspelled⟩ := allSpelled_of_parse hparse
  obtain rfl : tokens = tokens' := by simpa [htokens] using htokens'
  have hat : At source (Cursor.start source) := rfl
  obtain ⟨found, hfound, hnames, htold⟩ := finds_nodes hspelled hyields hat hlegible
  -- Where the scanner finishes at most line breaks and the like are left.
  have hnone : loopNamesIn c.rest = [] := by
    obtain ⟨layout, hrest, hlayout, -⟩ := c.skipLayout_cases
    have hbrace : '{' ∉ layout := fun hmem => by cases hlayout _ hmem
    rw [hrest, c.rest_of_finished hend, loopNamesIn_append (quiet_of_notMem hbrace), loopNamesIn]
  have hsource : loopNamesIn source.toList = found := by
    rwa [hnone, List.append_nil] at hfound
  rw [loopNames, hsource, ← eraseDups_map, List.map_map]
  · exact congrArg List.eraseDups hnames
  · intro a ha b hb hab
    obtain ⟨w, hw, rfl⟩ := List.mem_map.1 ha
    obtain ⟨w', hw', rfl⟩ := List.mem_map.1 hb
    obtain ⟨t, ht, rfl⟩ := htold w hw
    obtain ⟨t', ht', rfl⟩ := htold w' hw'
    rw [String.ofList_toList, String.ofList_toList] at hab ⊢
    exact hlegible.alike t t' ht ht' hab

/-- A name in backticks is found with them. -/
theorem map_resolved_loopNames_quoted :
    let source := "\x7b@ for \x60a b\x60 in t @\x7dx\x7b@ end for @\x7d"
    ∃ nodes tokens, parse source = .ok nodes ∧ tokenize source = .ok tokens ∧
      Legible source tokens ∧ (loopNames source).map resolved = (Node.loopNamesIn nodes).eraseDups ∧
      Node.loopNamesIn nodes = ["a b"] := by
  intro source
  have hparse : parse source = .ok [.block (.loop ⟨"a b", ⟨"t", none⟩, none, false⟩) [.text "x"]] := by
    unfold source
    exact parse_of_within 40 rfl
  let tokens : List Token :=
    [⟨.openTag, 0, "\x7b@ "⟩, ⟨.keyword .forWord, 3, "for"⟩, ⟨.blank, 6, " "⟩,
      ⟨.segment "a b", 7, "\x60a b\x60"⟩, ⟨.blank, 12, " "⟩, ⟨.keyword .inWord, 13, "in"⟩,
      ⟨.blank, 15, " "⟩, ⟨.segment "t", 16, "t"⟩, ⟨.closeTag, 17, " @\x7d"⟩, ⟨.text "x", 20, "x"⟩,
      ⟨.openTag, 21, "\x7b@ "⟩, ⟨.keyword .endWord, 24, "end"⟩, ⟨.blank, 27, " "⟩,
      ⟨.keyword .forWord, 28, "for"⟩, ⟨.closeTag, 31, " @\x7d"⟩]
  have htokens : tokenize source = .ok tokens := by
    unfold source
    exact tokenize_of_within 40 rfl
  have hspelled (t : Token) (ht : NamesLoop tokens t) :
      t.spelling = "\x60a b\x60" ∨ t.spelling = "t" := by
    obtain ⟨hmem, name, hkind⟩ := ht.segment
    simp only [tokens] at hmem
    fin_cases hmem <;> simp at hkind ⊢
  have hlegible : Legible source tokens := by
    refine ⟨?_, ?_, ?_⟩
    · intro t ht hverbatim i hlow hhigh
      simp only [tokens] at ht
      fin_cases ht <;> simp [TokenKind.Verbatim] at hverbatim
      · replace hlow : 7 ≤ i := hlow
        replace hhigh : i < 12 := hhigh
        interval_cases i <;> exact loopName?_eq_none (by decide)
      · obtain rfl : i = 20 := Nat.le_antisymm (Nat.lt_succ_iff.1 hhigh) hlow
        exact loopName?_eq_none (by decide)
    · intro t ht
      rcases hspelled t ht with h | h
      · rw [h]
        exact .inr ⟨['a', ' ', 'b'], rfl, by decide, by decide⟩
      · rw [h]
        exact .inl (List.forall_mem_singleton.2 rfl)
    · intro t t' ht ht' hresolved
      have hquoted : resolved "\x60a b\x60" = "a b" := rfl
      have hbare : resolved "t" = "t" := rfl
      rcases hspelled t ht with h | h <;> rcases hspelled t' ht' with h' | h' <;>
        simp_all
  refine ⟨_, tokens, hparse, htokens, hlegible, map_resolved_loopNames hparse htokens hlegible, ?_⟩
  simp [Node.loopNamesIn, Node.loopNames]

/-- A bracket behind a backslash is text, and no loop is read, but one is found. -/
theorem loopNames_behind_backslash :
    let source := "\\\x7b@ for x in t @\x7d"
    ∃ nodes, parse source = .ok nodes ∧
      (loopNames source).map resolved ≠ (Node.loopNamesIn nodes).eraseDups := by
  intro source
  have hparse : parse source = .ok [.text "\x7b@ for x in t @\x7d"] := by
    unfold source
    exact parse_of_within 40 rfl
  have hsource : source.toList = ['\\'] ++ "\x7b@ for x in t @\x7d".toList := by
    unfold source
    rfl
  have htag : loopName? "\x7b@ for x in t @\x7d".toList = some (['x'], " t @\x7d".toList) := rfl
  have hbehind : loopNamesIn (" t @\x7d".toList ++ []) = loopNamesIn [] :=
    loopNamesIn_append (quiet_of_notMem (by decide))
  have hfound : loopNamesIn source.toList = [['x']] := by
    rw [hsource, loopNamesIn_append (quiet_of_notMem (by decide)), loopNamesIn_of_found htag,
      ← List.append_nil " t @\x7d".toList, hbehind, loopNamesIn]
  refine ⟨_, hparse, ?_⟩
  rw [loopNames, hfound]
  exact List.cons_ne_nil _ _

end MailMerge.Editor
