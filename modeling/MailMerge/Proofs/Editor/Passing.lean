/-
What a search for loop names passes over. In a template that is cut into tokens, nothing is found in
what is left of a bracket behind its first word, and nothing across the end of a token, so only the
openings of loops, texts and what stands in quotes are left to look at.
-/
import MailMerge.Proofs.Editor.LoopNames
import MailMerge.Proofs.Markup.Braces
import MailMerge.Proofs.Markup.Discipline
import MailMerge.Proofs.Markup.Spacing

namespace MailMerge.Editor

open MailMerge.Markup MailMerge.Text

variable {source : String} {c next : Cursor} {t : Token} {b : Bracket} {mode : Mode}
  {kind : TokenKind} {w rest layout : List Char}

/-! ## Places -/

/-- The place is one of the template: its text is what is left there. -/
def At (source : String) (c : Cursor) : Prop :=
  source.toList.drop c.position = c.rest

theorem At.step (h : At source c) (hstep : c.step = .token t next) : At source next := by
  obtain ⟨layout, w, hrest, -, -, -, -, hnext⟩ := Cursor.step_eq_token_cases hstep
  have hposition : next.position = c.position + (layout ++ w).length := by
    rw [congrArg Cursor.position hnext, List.length_append, ← Nat.add_assoc]
  rw [At, hposition, ← List.drop_drop, show source.toList.drop c.position = c.rest from h, hrest,
    List.drop_left]

/-- Nothing is found that starts in a token. -/
def Clear (source : String) (t : Token) : Prop :=
  ∀ i, t.position ≤ i → i < t.position + t.spelling.length →
    loopName? (source.toList.drop i) = none

theorem Clear.quiet (h : Clear source t) (hat : At source c) (hstep : c.step = .token t next) :
    Quiet t.spelling.toList next.rest := by
  obtain ⟨layout, w, hrest, -, -, -, ht, -⟩ := Cursor.step_eq_token_cases hstep
  have hw : t.spelling.toList = w := by rw [ht, String.toList_ofList]
  have hposition : t.position = c.position + layout.length := by rw [ht]
  intro s hs hne
  obtain ⟨front, hfront⟩ := hs
  have hlength : t.spelling.length = front.length + s.length := by
    rw [← String.length_toList, ← hfront, List.length_append]
  have hdrop : source.toList.drop (t.position + front.length) = s ++ next.rest := by
    rw [hposition, Nat.add_assoc, ← List.length_append, ← List.drop_drop,
      show source.toList.drop c.position = c.rest from hat, hrest, ← hw, ← hfront,
      ← List.append_assoc layout, List.append_assoc (layout ++ front), List.drop_left]
  rw [← hdrop]
  have := List.length_pos_iff.2 hne
  exact h _ (by omega) (by omega)

/-- A token in which nothing is found is passed over, with the layout in front of it. -/
theorem loopNamesIn_step (hstep : c.step = .token t next)
    (h : Quiet t.spelling.toList next.rest) : loopNamesIn c.rest = loopNamesIn next.rest := by
  obtain ⟨layout, w, hrest, hlayout, -, -, ht, -⟩ := Cursor.step_eq_token_cases hstep
  have hw : t.spelling.toList = w := by rw [ht, String.toList_ofList]
  have hbrace : '{' ∉ layout := fun hmem => by cases hlayout _ hmem
  rw [hrest, ← hw]
  exact loopNamesIn_append (quiet_append (quiet_of_notMem hbrace) h)

/-! ## Tokens in which nothing is found -/

theorem notMem_of_isBlank {blanks : List Char} (h : ∀ c ∈ blanks, isBlank c = true) : '{' ∉ blanks :=
  fun hmem => by cases h _ hmem

/-- A token that neither opens a block tag nor stands in quotes is quiet, if what stands behind it is
inert; behind a closing bracket anything may stand. -/
theorem quiet_of_bracketShape (h : b.Shape kind w) (hkind : ¬kind.Verbatim w)
    (hrest : kind ∉ [.closeExpansion, .closeTag] → Inert rest) : Quiet w rest := by
  cases h with
  | closing hblanks =>
    refine quiet_of_notMem fun hmem => ?_
    rcases List.mem_append.1 hmem with hmem | hmem
    · exact notMem_of_isBlank hblanks hmem
    · cases b <;> simp [Bracket.close] at hmem
  | blank _ hblanks => exact quiet_of_notMem (notMem_of_isBlank hblanks)
  | quoted _ _ => exact (hkind rfl).elim
  | word _ h =>
    refine quiet_of_not_infix (Bracket.not_infix_of_spells h) (hrest ?_)
    rcases b.word_cases w with ⟨_, hword⟩ | ⟨_, hword⟩ <;> simp [hword]
  | dot | atSign => exact quiet_of_notMem (by decide)
  | operator op _ => exact quiet_of_notMem (by cases op <;> decide)

theorem quiet_of_shape (h : mode.Shape kind w) (hkind : ¬kind.Verbatim w) (htag : kind ≠ .openTag)
    (hrest : kind ∉ [.closeExpansion, .closeTag] → Inert rest) : Quiet w rest := by
  cases mode with
  | text =>
    cases h with
    | @opening b blanks hblanks =>
      cases b with
      | tag => exact (htag rfl).elim
      | expansion =>
        have hnot : ¬['{', '@'] <:+: ['{', '{'] ++ blanks := by
          intro h
          have hat : '@' ∈ ['{', '{'] ++ blanks := h.subset (by simp)
          rcases List.mem_append.1 hat with hmem | hmem
          · simp at hmem
          · cases hblanks _ hmem
        exact quiet_of_not_infix hnot (hrest (by simp [Bracket.start]))
    | text _ _ => exact (hkind trivial).elim
  | expansion => exact quiet_of_bracketShape (b := .expansion) h hkind hrest
  | tag => exact quiet_of_bracketShape (b := .tag) h hkind hrest
  | literal =>
    cases h with
    | quoted _ => exact (hkind rfl).elim
    | number hspan _ => exact quiet_of_notMem (notMem_of_spanDecimal (by decide) (by decide) hspan)

/-- Such a token is passed over. -/
theorem step_passed (hstep : c.step = .token t next) (hat : At source c) (htag : t.kind ≠ .openTag)
    (hclear : t.kind.Verbatim t.spelling.toList → Clear source t)
    (hrest : t.kind ∉ [.closeExpansion, .closeTag] → Inert next.rest) :
    loopNamesIn c.rest = loopNamesIn next.rest := by
  refine loopNamesIn_step hstep ?_
  by_cases hkind : t.kind.Verbatim t.spelling.toList
  · exact (hclear hkind).quiet hat hstep
  · obtain ⟨layout, w, -, -, -, hscan, ht, -⟩ := Cursor.step_eq_token_cases hstep
    have hw : t.spelling.toList = w := by rw [ht, String.toList_ofList]
    rw [hw] at hkind ⊢
    exact quiet_of_shape (Mode.shape_of_scan hscan) hkind htag hrest

/-! ## In front of a token -/

/-- A text in a bracket that starts as a word does is inert. -/
theorem inert_of_startsWord (h : StartsWord rest) : Inert rest := by
  obtain ⟨c, rest, rfl, -, hc, -⟩ := h
  exact inert_of_head? (by simpa using hc)

theorem inert_of_isBlank {d : Char} (h : isBlank d = true) (rest : List Char) : Inert (d :: rest) := by
  refine inert_of_head? ?_
  rintro ⟨⟩
  cases h

theorem inert_of_bracketShape (h : b.Shape kind w) (hat : kind ≠ .atSign) (more : List Char) :
    Inert (w ++ more) := by
  cases h with
  | @closing blanks hblanks =>
    cases blanks with
    | nil =>
      cases b with
      | expansion => exact inert_of_head? (by simp [Bracket.close])
      | tag => exact inert_closeTag more
    | cons d blanks => exact inert_of_isBlank (hblanks d List.mem_cons_self) _
  | blank hne hblanks =>
    obtain ⟨d, w, rfl⟩ := List.exists_cons_of_ne_nil hne
    exact inert_of_isBlank (hblanks d List.mem_cons_self) _
  | quoted _ _ => exact inert_of_head? (by simp)
  | word hne h => exact inert_of_startsWord ((Bracket.startsWord_of_spells hne h).1.append more)
  | dot => exact inert_of_head? (by simp)
  | atSign => exact (hat rfl).elim
  | operator op _ => exact inert_of_startsWord ((startsWord_operator op).append more)

theorem inert_of_literalShape (h : LiteralShape kind w) (more : List Char) : Inert (w ++ more) := by
  have hat : '@' ∉ w.head? := by
    cases h with
    | quoted _ => simp
    | number hspan _ =>
      exact fun hmem => notMem_of_spanDecimal (by decide) (by decide) hspan (List.mem_of_mem_head? hmem)
  obtain ⟨d, w, rfl, -⟩ := h.head
  exact inert_of_head? hat

/-- In a bracket every token but an at sign is inert. -/
theorem inert_of_step (hstep : c.step = .token t next) (hmode : c.mode ≠ .text)
    (hat : t.kind ≠ .atSign) : Inert c.rest := by
  obtain ⟨layout, w, hrest, hlayout, -, hscan, -, -⟩ := Cursor.step_eq_token_cases hstep
  rw [hrest]
  cases layout with
  | cons d layout => exact inert_of_isBlank (isBlank_of_isLayout (hlayout d List.mem_cons_self)) _
  | nil =>
    have hshape := Mode.shape_of_scan hscan
    generalize c.mode = mode at hshape hmode
    cases mode with
    | text => exact (hmode rfl).elim
    | expansion => exact inert_of_bracketShape (b := .expansion) hshape hat _
    | tag => exact inert_of_bracketShape (b := .tag) hshape hat _
    | literal => exact inert_of_literalShape hshape _

/-- Behind an index `for` in an interpolation no name stands. -/
theorem loopName?_for_index (h : Bracket.expansion.Shape kind w) (hkind : kind ≠ .blank)
    (more : List Char) :
    loopName? ('{' :: '@' :: 'f' :: 'o' :: 'r' :: (w ++ more)) = none := by
  by_cases hclose : kind = .closeExpansion
  · subst hclose
    generalize hkind : TokenKind.closeExpansion = kind at h
    cases h with
    | closing hblanks =>
      rw [List.append_assoc]
      exact loopName?_no_name hblanks rfl (by decide) rfl
    | word _ _ => cases hkind
    | quoted _ _ | blank _ _ | dot | atSign | operator _ _ => cases hkind
  · have hhead : ∃ d rest, w = d :: rest ∧ isBlank d = false := by
      cases h with
      | closing _ => exact (hclose rfl).elim
      | blank _ _ => exact (hkind rfl).elim
      | quoted _ _ => exact ⟨_, _, rfl, rfl⟩
      | word hne h =>
        obtain ⟨d, rest, rfl, hd, -⟩ := (Bracket.startsWord_of_spells hne h).1
        exact ⟨d, rest, rfl, hd⟩
      | dot | atSign => exact ⟨_, _, rfl, rfl⟩
      | operator _ hb => cases hb
    obtain ⟨d, rest, rfl, hd⟩ := hhead
    exact loopName?_no_blank hd (rest ++ more)

/-- A name in a block tag is not spelled as a keyword. -/
theorem ne_word_of_segmentShape {name : String} (h : Bracket.tag.Shape (.segment name) w)
    (k : Keyword) : w ≠ k.word.toList := by
  generalize hkind : TokenKind.segment name = kind at h
  cases h with
  | quoted _ _ => cases k <;> simp [Keyword.word]
  | word _ _ =>
    rintro rfl
    have hword : Rule.wordOf k.word.toList = .keyword k := by cases k <;> rfl
    exact TokenKind.noConfusion (hkind.trans hword)
  | closing _ | blank _ _ | dot | atSign | operator _ _ => cases hkind

/-- An at sign in front of an index is inert: the index is no keyword. -/
theorem inert_of_index {next' : Cursor} {t' : Token} {name : String}
    (hstep : c.step = .token t next) (hat : t.kind = .atSign) (hstep' : next.step = .token t' next')
    (hindex : t'.kind = .segment name) (hmode : c.mode = b.mode)
    (hends : b = .expansion → ∃ t'' next'', next'.step = .token t'' next'' ∧ t''.kind ≠ .blank) :
    Inert c.rest := by
  obtain ⟨hrest, hshape, hnext, -⟩ := Cursor.step_bracket hstep hmode
  rw [hat] at hshape hnext
  obtain ⟨hrest', hshape', hnext', hscan⟩ := Cursor.step_bracket hstep' hnext
  rw [hindex] at hshape' hnext' hscan
  rw [hrest, (Bracket.spelling_of_shape hshape).2.1 rfl]
  show Inert ('@' :: next.rest)
  obtain ⟨d, rest, hspelling, hd⟩ := hshape'.startsWord (by cases b <;> simp [Bracket.close])
  by_cases hfor : ['f', 'o', 'r'] <+: next.rest
  · obtain ⟨more, hmore⟩ := hfor
    have huniform := b.uniform_units
    have hspells : b.units.Spells ['f', 'o', 'r'] := by cases b <;> rfl
    have hrun : b.units.span next.rest =
        (['f', 'o', 'r'] ++ (b.units.span more).1, (b.units.span more).2) := by
      rw [← hmore]
      exact hspells.span_append fun d _ hplain => by rwa [huniform d _ none]
    have hbare : t'.spelling.toList.head? ≠ some '`' := by
      rw [hrest', hspelling] at hmore
      obtain rfl := (List.cons.inj hmore).1
      simp [hspelling]
    obtain ⟨hword, htail⟩ := Prod.mk.inj ((Bracket.span_of_scan hscan rfl hbare).symm.trans hrun)
    have hcut := b.units.span_append more
    rw [← htail] at hcut
    rw [← hmore]
    cases hone : (b.units.span more).1 with
    | nil =>
      -- The index is the word `for` itself.
      rw [hone] at hword hcut
      cases b with
      | tag => exact (ne_word_of_segmentShape hshape' .forWord hword).elim
      | expansion =>
        obtain ⟨t'', next'', hstep'', hblank⟩ := hends rfl
        obtain ⟨hrest'', hshape'', -, -⟩ := @Cursor.step_bracket _ _ _ .expansion hstep'' hnext'
        rw [← hcut, List.nil_append, hrest'']
        exact loopName?_for_index hshape'' hblank _
    | cons e run =>
      have he : isBlank e = false :=
        Bracket.unspaced_of_spells (huniform.spells_span more) e (by simp [hone])
      rw [← hcut, hone]
      exact loopName?_no_blank he _
  · have hstart : StartsWord next.rest := by
      rw [hrest', hspelling]
      exact ⟨d, _, rfl, hd⟩
    exact loopName?_other_word (by rwa [hstart.blanks.2])

/-! ## Brackets in which nothing is found -/

/-- The modes of the scanner in a bracket: in a block tag it may be asked for a literal. -/
def InBracket (b : Bracket) (mode : Mode) : Prop :=
  mode = b.mode ∨ b = .tag ∧ mode = .literal

theorem InBracket.ne_text (h : InBracket b mode) : mode ≠ .text := by
  rcases h with rfl | ⟨-, rfl⟩
  · cases b <;> decide
  · decide

/-- The tokens that may stand behind the opening bracket of an interpolation, or in a block tag behind
the word `for` or where there is no such word. -/
def Inner (b : Bracket) : TokenKind → Prop
  | .segment _ | .dot | .operator _ | .literal _ => True
  | .keyword k => k ≠ .forWord
  | .blank => b = .tag
  | _ => False

/-- Tokens up to the end of a bracket: an index follows every at sign. -/
inductive Inside (b : Bracket) : List TokenKind → Prop
  | close : Inside b [b.close.2]
  | ended (k : Keyword) : Inside b [.keyword k, b.close.2]
  | index {name : String} {kinds : List TokenKind} (hrest : Inside b kinds) :
      Inside b (.atSign :: .segment name :: kinds)
  | inner {kind : TokenKind} {kinds : List TokenKind} (hkind : Inner b kind) (hrest : Inside b kinds) :
      Inside b (kind :: kinds)

namespace Inside

variable {kinds : List TokenKind}

theorem lookup (l : Lookup) (h : Inside b kinds) : Inside b (l.tokens ++ kinds) := by
  obtain ⟨table, index⟩ := l
  cases index with
  | none => exact .inner trivial h
  | some index => exact .inner trivial (.index h)

theorem expansion (e : Expansion) (h : Inside b kinds) : Inside b (e.tokens ++ kinds) := by
  obtain ⟨path, field⟩ := e
  induction path with
  | nil => exact .inner trivial h
  | cons l path ih =>
    have hdot : Inside b (.dot :: (Expansion.tokens ⟨path, field⟩ ++ kinds)) := .inner trivial ih
    simpa [Expansion.tokens] using lookup l hdot

theorem comparison {comparison : Comparison} {spelled : List TokenKind}
    (hspelled : comparison.Spelled spelled) (h : Inside .tag kinds) :
    Inside .tag (spelled ++ kinds) := by
  obtain ⟨gap, hgap, rfl⟩ := hspelled
  have hbehind : Inside .tag (.operator comparison.op :: .literal comparison.literal :: kinds) :=
    .inner trivial (.inner trivial h)
  rw [List.append_assoc, List.append_assoc]
  refine expansion _ ?_
  rcases hgap with rfl | rfl
  · exact hbehind
  · exact .inner rfl hbehind

theorem head (h : Inside b kinds) :
    ∃ kind rest, kinds = kind :: rest ∧ (b = .expansion → kind ≠ .blank) := by
  cases h with
  | close => exact ⟨_, _, rfl, fun hb => by simp [hb, Bracket.close]⟩
  | ended k => exact ⟨_, _, rfl, by simp⟩
  | index _ => exact ⟨_, _, rfl, by simp⟩
  | inner hkind _ =>
    refine ⟨_, _, rfl, ?_⟩
    rintro rfl rfl
    cases hkind

end Inside

theorem inBracket_iff : InBracket b mode ↔ mode.bracket? = some b := by
  cases b <;> cases mode <;> simp [InBracket, Bracket.mode, Mode.bracket?]

/-- Behind a token that does not close the bracket the scanner is still there. -/
theorem InBracket.step (h : InBracket b c.mode) (hstep : c.step = .token t next)
    (hkind : t.kind ≠ b.close.2) : InBracket b next.mode := by
  rw [inBracket_iff] at h ⊢
  rcases Cursor.step_inside hstep h with ⟨hclose, -⟩ | ⟨-, hnext⟩
  · exact (hkind hclose).elim
  · exact hnext

/-- No at sign stands where a literal is asked for. -/
theorem InBracket.of_atSign (h : InBracket b c.mode) (hstep : c.step = .token t next)
    (hat : t.kind = .atSign) : c.mode = b.mode := by
  rcases h with hmode | ⟨-, hmode⟩
  · exact hmode
  · obtain ⟨layout, w, -, -, -, hscan, -, -⟩ := Cursor.step_eq_token_cases hstep
    rw [hmode, hat] at hscan
    have hshape : LiteralShape .atSign w := Mode.shape_of_scan hscan
    cases hshape

theorem Inner.ne_close {kind : TokenKind} (h : Inner b kind) : kind ≠ b.close.2 ∧ kind ≠ .openTag := by
  constructor
  · rintro rfl
    cases b <;> cases h
  · rintro rfl
    cases h

/-- A closing bracket is passed over, whatever stands behind it. -/
theorem step_closed (hstep : c.step = .token t next) (hat : At source c) (hkind : t.kind = b.close.2) :
    loopNamesIn c.rest = loopNamesIn next.rest := by
  have hclose : t.kind ≠ .openTag ∧ ¬t.kind.Verbatim t.spelling.toList ∧
      t.kind ∈ [.closeExpansion, .closeTag] := by
    rw [hkind]
    cases b <;> simp [Bracket.close, TokenKind.Verbatim]
  exact step_passed hstep hat hclose.1 (fun h => (hclose.2.1 h).elim) fun h => (h hclose.2.2).elim

namespace Inside

variable {c' : Cursor} {kinds : List TokenKind} {tokens : List Token}

/-- What is left of a bracket is inert. -/
theorem inert (h : Inside b (tokens.map (·.kind))) (hyields : c.Yields tokens c')
    (hmode : InBracket b c.mode) : Inert c.rest := by
  generalize hkinds : tokens.map (·.kind) = kinds at h
  cases hyields with
  | nil =>
    subst hkinds
    obtain ⟨_, _, hnil, -⟩ := h.head
    cases hnil
  | @cons _ next _ t tokens hstep hyields =>
    rw [List.map_cons] at hkinds
    cases h with
    | close =>
      have hat : t.kind ≠ .atSign := by
        rw [(List.cons.inj hkinds).1]
        cases b <;> simp [Bracket.close]
      exact inert_of_step hstep hmode.ne_text hat
    | ended k =>
      exact inert_of_step hstep hmode.ne_text (by simp [(List.cons.inj hkinds).1])
    | inner hkind _ =>
      obtain ⟨rfl, -⟩ := List.cons.inj hkinds
      refine inert_of_step hstep hmode.ne_text fun hat => ?_
      rw [hat] at hkind
      cases hkind
    | @index name _ hrest =>
      obtain ⟨hat, hkinds⟩ := List.cons.inj hkinds
      cases hyields with
      | nil => cases hkinds
      | @cons _ next' _ t' tokens hstep' hyields =>
        obtain ⟨hindex, rfl⟩ := List.cons.inj hkinds
        refine inert_of_index hstep hat hstep' hindex (hmode.of_atSign hstep hat) fun hb => ?_
        -- What stands behind the index is no white space in an interpolation.
        obtain ⟨kind, rest, hkinds, hblank⟩ := hrest.head
        cases hyields with
        | nil => cases hkinds
        | @cons _ next'' _ t'' _ hstep'' _ =>
          obtain ⟨rfl, -⟩ := List.cons.inj hkinds
          exact ⟨t'', next'', hstep'', hblank hb⟩

/-- What is left of a bracket is passed over, if nothing is found in what stands in quotes. -/
theorem passed (h : Inside b (tokens.map (·.kind))) (hyields : c.Yields tokens c')
    (hmode : InBracket b c.mode) (hat : At source c)
    (hclear : ∀ t ∈ tokens, t.kind.Verbatim t.spelling.toList → Clear source t) :
    loopNamesIn c.rest = loopNamesIn c'.rest := by
  generalize hkinds : tokens.map (·.kind) = kinds at h
  induction h generalizing c tokens with
  | close =>
    obtain ⟨t, rfl, hkind⟩ := List.map_eq_singleton_iff.1 hkinds
    cases hyields with
    | cons hstep hyields =>
      cases hyields
      exact step_closed hstep hat hkind
  | ended k =>
    obtain ⟨t, tokens, rfl, hkind, hkinds⟩ := List.map_eq_cons_iff.1 hkinds
    have hclose : t.kind ≠ b.close.2 := by
      rw [hkind]
      cases b <;> simp [Bracket.close]
    cases hyields with
    | @cons _ next _ _ _ hstep hyields =>
      have hinert : Inert next.rest := by
        refine inert ?_ hyields (hmode.step hstep hclose)
        rw [hkinds]
        exact .close
      obtain ⟨t', rfl, hkind'⟩ := List.map_eq_singleton_iff.1 hkinds
      rw [step_passed hstep hat (by simp [hkind]) (hclear t List.mem_cons_self) fun _ => hinert]
      cases hyields with
      | cons hstep' hyields =>
        cases hyields
        exact step_closed hstep' (hat.step hstep) hkind'
  | @inner kind kinds hkind hrest ih =>
    obtain ⟨hclose, htag⟩ := hkind.ne_close
    obtain ⟨t, tokens, rfl, rfl, rfl⟩ := List.map_eq_cons_iff.1 hkinds
    rw [List.forall_mem_cons] at hclear
    cases hyields with
    | cons hstep hyields =>
      have hmode' := hmode.step hstep hclose
      rw [step_passed hstep hat htag hclear.1 fun _ => hrest.inert hyields hmode']
      exact ih hyields hmode' (hat.step hstep) hclear.2 rfl
  | @index name kinds hrest ih =>
    obtain ⟨t, tokens, rfl, hkind, hkinds⟩ := List.map_eq_cons_iff.1 hkinds
    obtain ⟨t', tokens, rfl, hkind', rfl⟩ := List.map_eq_cons_iff.1 hkinds
    rw [List.forall_mem_cons, List.forall_mem_cons] at hclear
    have hclose : t.kind ≠ b.close.2 ∧ t'.kind ≠ b.close.2 := by
      rw [hkind, hkind']
      cases b <;> simp [Bracket.close]
    cases hyields with
    | cons hstep hyields =>
      have hmode' := hmode.step hstep hclose.1
      cases hyields with
      | cons hstep' hyields =>
        have hmode'' := hmode'.step hstep' hclose.2
        rw [step_passed hstep hat (by simp [hkind]) hclear.1 fun _ =>
            inert_of_step hstep' hmode'.ne_text (by simp [hkind']),
          step_passed hstep' (hat.step hstep) (by simp [hkind']) hclear.2.1 fun _ =>
            hrest.inert hyields hmode'']
        exact ih hyields hmode'' ((hat.step hstep).step hstep') hclear.2.2 rfl

end Inside

end MailMerge.Editor
