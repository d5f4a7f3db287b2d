/-
White space inside of brackets. Between the tokens of a bracket the kind and the amount of white
space do not matter, except between a comparator and its literal: there only spaces, tabs and line
ends are passed over, and any other white space is taken for the start of a wrong literal.
-/
import Mathlib.Data.List.Basic
import MailMerge.Proofs.Markup.Respelling
import MailMerge.Proofs.Markup.Seam
import MailMerge.Proofs.Number.Overlong

namespace MailMerge.Markup

open MailMerge.Text MailMerge.Number

/-! ## Texts without white space -/

/-- A text in which no white space stands. -/
def Unspaced (w : List Char) : Prop :=
  ∀ c ∈ w, isBlank c = false

/-- What is passed over from the first text to the second one holds no white space. -/
def UnspacedTo (cs rest : List Char) : Prop :=
  ∃ w, Unspaced w ∧ cs = w ++ rest

theorem UnspacedTo.refl (cs : List Char) : UnspacedTo cs cs :=
  ⟨[], List.forall_mem_nil _, rfl⟩

theorem UnspacedTo.trans {cs rest tail : List Char} (h : UnspacedTo cs rest)
    (hrest : UnspacedTo rest tail) : UnspacedTo cs tail := by
  obtain ⟨w, hw, rfl⟩ := h
  obtain ⟨w', hw', rfl⟩ := hrest
  exact ⟨w ++ w', List.forall_mem_append.2 ⟨hw, hw'⟩, (List.append_assoc ..).symm⟩

theorem UnspacedTo.cons {c : Char} {cs rest : List Char} (hc : isBlank c = false)
    (h : UnspacedTo cs rest) : UnspacedTo (c :: cs) rest := by
  obtain ⟨w, hw, rfl⟩ := h
  exact ⟨c :: w, List.forall_mem_cons.2 ⟨hc, hw⟩, rfl⟩

theorem UnspacedTo.unspaced {w : List Char} (h : UnspacedTo w []) : Unspaced w := by
  obtain ⟨w, hw, rfl⟩ := h
  rwa [List.append_nil]

section

variable (cs : List Char)

theorem unspacedTo_spanDigits : UnspacedTo cs (spanDigits cs).2 := by
  obtain ⟨digits, hdigits, hcs, -⟩ := spanDigits_split cs
  refine ⟨digits, fun c hc => ?_, hcs⟩
  have hdigit := hdigits c hc
  cases hblank : isBlank c with
  | false => rfl
  | true =>
    rw [isDecimalDigit, digitValue?_of_isBlank hblank] at hdigit
    cases hdigit

theorem unspacedTo_spanSign : UnspacedTo cs (spanSign cs).2 := by
  obtain ⟨sign, hsign, hcs⟩ := spanSign_split cs
  refine ⟨sign, ?_, hcs⟩
  simp only [List.mem_cons, List.not_mem_nil, or_false] at hsign
  rcases hsign with rfl | rfl | rfl
  · exact List.forall_mem_nil _
  · exact List.forall_mem_singleton.2 rfl
  · exact List.forall_mem_singleton.2 rfl

theorem unspacedTo_spanFraction : UnspacedTo cs (spanFraction cs).2 := by
  unfold spanFraction
  split
  · exact (unspacedTo_spanDigits _).cons rfl
  · exact .refl cs

theorem unspacedTo_spanExponent : UnspacedTo cs (spanExponent cs).2 := by
  unfold spanExponent
  split
  · rename_i c rest
    split
    · rename_i hc
      have hletter : isBlank c = false := by rcases hc with rfl | rfl <;> rfl
      have hdigits := unspacedTo_spanDigits (spanSign rest).2
      split
      · exact .refl _
      · rename_i rest' hspan
        rw [hspan] at hdigits
        exact .cons hletter ((unspacedTo_spanSign rest).trans hdigits)
    · exact .refl _
  · exact .refl _

end

/-- No white space stands in a number. -/
theorem unspaced_of_spanDecimal {w : List Char} {d : DecimalSpelling}
    (h : spanDecimal w = some (d, [])) : Unspaced w := by
  obtain ⟨⟨whole, fraction, rest⟩, hmantissa, hd⟩ := Option.map_eq_some_iff.1 h
  simp only [spanMantissa, Option.ite_none_left_eq_some, Option.some.injEq, Prod.mk.injEq] at hmantissa
  obtain ⟨-, -, -, rfl⟩ := hmantissa
  have hend := unspacedTo_spanExponent (spanFraction (spanDigits (spanSign w).2).2).2
  rw [(Prod.mk.inj hd).2] at hend
  exact ((unspacedTo_spanSign w).trans ((unspacedTo_spanDigits _).trans
    ((unspacedTo_spanFraction _).trans hend))).unspaced

/-- What holds of everything that may stand in a run holds of the run. -/
theorem Units.forall_mem_span {u : Units} {p : Char → Prop} (hbackslash : p '\\')
    (hplain : ∀ c next, u.plain c next = true → p c) (hescapable : ∀ c, u.escapable c = true → p c)
    (cs : List Char) : ∀ c ∈ (u.span cs).1, p c := by
  fun_induction Units.span u cs with
  | case1 | case3 | case5 => exact List.forall_mem_nil _
  | case2 c rest hc run ih =>
    exact List.forall_mem_cons.2 ⟨hbackslash, List.forall_mem_cons.2 ⟨hescapable c hc, ih⟩⟩
  | case4 c rest _ hc run ih => exact List.forall_mem_cons.2 ⟨hplain c _ hc.2, ih⟩

/-- No white space stands in a bare name or in a keyword. -/
theorem Bracket.unspaced_of_spells {b : Bracket} {w : List Char} (h : b.units.Spells w) :
    Unspaced w := by
  have hplain : ∀ c next, b.units.plain c next = true → isBlank c = false := by
    intro c next hc
    cases b <;> simp_all [units, tagUnits, expansionUnits]
  have hescapable : ∀ c, b.units.escapable c = true → isBlank c = false := by
    intro c hc
    have hmem : c ∈ ['\\', '@', '{', '}', '.'] := by
      cases b <;> exact of_decide_eq_true hc
    simp only [List.mem_cons, List.not_mem_nil, or_false] at hmem
    rcases hmem with rfl | rfl | rfl | rfl | rfl <;> rfl
  have hspan := Units.forall_mem_span (p := (isBlank · = false)) rfl hplain hescapable w
  rwa [show b.units.span w = (w, []) from h] at hspan

/-! ## Runs of white space -/

theorem isBlank_of_isLayout {c : Char} (h : isLayout c = true) : isBlank c = true := by
  simp only [isLayout, List.mem_cons, List.not_mem_nil, or_false, decide_eq_true_eq] at h
  rcases h with rfl | rfl | rfl | rfl <;> rfl

/-- A run of white space that can be extended neither into what stands in front of it nor into what
stands behind it. -/
structure MaximalRun (front run back : List Char) : Prop where
  ne_nil : run ≠ []
  blank : ∀ c ∈ run, isBlank c = true
  front_ends : ∀ c ∈ front.getLast?, isBlank c = false
  back_starts : ∀ c ∈ back.head?, isBlank c = false

namespace MaximalRun

variable {front run back : List Char}

theorem drop {cs : List Char} (h : MaximalRun (cs ++ front) run back) :
    MaximalRun front run back := by
  refine ⟨h.ne_nil, h.blank, fun c hc => h.front_ends c ?_, h.back_starts⟩
  rw [List.getLast?_append, Option.mem_def.1 hc]
  rfl

theorem leadingBlanks_eq (h : MaximalRun front run back) : leadingBlanks (run ++ back) = run := by
  rw [leadingBlanks_append h.blank]
  cases hback : back with
  | nil => exact List.append_nil run
  | cons c back =>
    rw [leadingBlanks_cons (h.back_starts c (by rw [hback]; rfl)), List.append_nil]

/-- What a run starts holds white space. -/
theorem eq_nil_of_unspaced (h : MaximalRun front run back) {w tail : List Char}
    (hcut : run ++ back = w ++ tail) (hw : Unspaced w) : w = [] := by
  obtain ⟨c, run, rfl⟩ := List.exists_cons_of_ne_nil h.ne_nil
  cases w with
  | nil => rfl
  | cons d w =>
    obtain rfl := (List.cons.inj hcut).1
    have hblank := h.blank c List.mem_cons_self
    rw [hw c List.mem_cons_self] at hblank
    cases hblank

/-- A maximal run that starts in `p ++ s ++ q`, where only `s` is white space, is `s`. -/
theorem eq_of_overlap (h : MaximalRun front run back) {p s q rest : List Char}
    (hcut : p ++ (s ++ (q ++ rest)) = front ++ (run ++ back)) (hp : Unspaced p)
    (hs : ∀ c ∈ s, isBlank c = true) (hq : Unspaced q)
    (hrest : s ≠ [] → ∀ c ∈ (q ++ rest).head?, isBlank c = false)
    (hlt : front.length < p.length + s.length + q.length) :
    s ≠ [] ∧ front = p ∧ run = s ∧ back = q ++ rest := by
  -- The run does not start in front of `s`.
  obtain ⟨f, rfl, hbehind⟩ : ∃ f, front = p ++ f ∧ s ++ (q ++ rest) = f ++ (run ++ back) := by
    rcases List.append_eq_append_iff.1 hcut with ⟨f, hfront, hcut⟩ | ⟨tail, htail, hcut⟩
    · exact ⟨f, hfront, hcut⟩
    · obtain rfl := h.eq_nil_of_unspaced hcut fun c hc => hp c (by simp [htail, hc])
      exact ⟨[], by simpa using htail.symm, hcut.symm⟩
  rw [List.length_append] at hlt
  rcases List.append_eq_append_iff.1 hbehind with ⟨f', rfl, hafter⟩ | ⟨s', rfl, hinside⟩
  · -- Nor does it start behind `s`.
    rw [List.length_append] at hlt
    rcases List.append_eq_append_iff.1 hafter with ⟨_, rfl, -⟩ | ⟨tail, rfl, htail⟩
    · rw [List.length_append] at hlt
      omega
    · obtain rfl := h.eq_nil_of_unspaced htail fun c hc => hq c (by simp [hc])
      simp only [List.length_append, List.length_nil] at hlt
      omega
  · have hne : s' ≠ [] := by
      rintro rfl
      obtain rfl := h.eq_nil_of_unspaced (w := q) hinside hq
      simp only [List.length_append, List.length_nil] at hlt
      omega
    -- What stands in front of the run does not end in white space.
    obtain rfl : f = [] := by
      rcases List.eq_nil_or_concat' f with rfl | ⟨f, c, rfl⟩
      · rfl
      · have hblank := hs c (by simp)
        rw [h.front_ends c (by simp)] at hblank
        cases hblank
    have hsame : MaximalRun [] s' (q ++ rest) := ⟨hne, hs, by rintro _ ⟨⟩, hrest hne⟩
    have hrun : run = s' := by rw [← h.leadingBlanks_eq, hinside, hsame.leadingBlanks_eq]
    subst hrun
    exact ⟨hne, List.append_nil p, rfl, List.append_cancel_left hinside⟩

end MaximalRun

/-! ## White space in tokens -/

/-- The token may hold white space of its own: it is a text, or what it names stands in quotes. -/
def TokenKind.Verbatim (kind : TokenKind) (w : List Char) : Prop :=
  match kind with
  | .text _ => True
  | .segment _ => w.head? = some '\x60'
  | .literal _ => w.head? = some '"'
  | _ => False

instance (kind : TokenKind) (w : List Char) : Decidable (kind.Verbatim w) :=
  match kind with
  | .text _ => .isTrue trivial
  | .segment _ => inferInstanceAs (Decidable (w.head? = some '\x60'))
  | .literal _ => inferInstanceAs (Decidable (w.head? = some '"'))
  | .openExpansion | .closeExpansion | .openTag | .closeTag | .dot | .atSign | .blank | .keyword _
  | .operator _ => .isFalse id

/-- The spelling of a token is white space between two texts that hold none, and it may be replaced by
other white space. -/
structure Mode.Spaced (mode : Mode) (kind : TokenKind) (p s q : List Char) : Prop where
  before : Unspaced p
  blank : ∀ c ∈ s, isBlank c = true
  behind : Unspaced q
  ends : s ≠ [] → q = [] → kind ∈ [.blank, .openExpansion, .openTag]
  respelled : s ≠ [] → ∀ s', s' ≠ [] → (∀ c ∈ s', isBlank c = true) →
    mode.Shape kind (p ++ (s' ++ q))

/-- A spelling without white space. -/
theorem Mode.spaced_of_unspaced {mode : Mode} {kind : TokenKind} {w : List Char} (h : Unspaced w) :
    mode.Spaced kind w [] [] where
  before := h
  blank := List.forall_mem_nil _
  behind := List.forall_mem_nil _
  ends hne := (hne rfl).elim
  respelled hne := (hne rfl).elim

theorem Bracket.Shape.spaced {b : Bracket} {kind : TokenKind} {w : List Char} (h : b.Shape kind w)
    (hkind : ¬ kind.Verbatim w) : ∃ p s q, w = p ++ (s ++ q) ∧ b.mode.Spaced kind p s q := by
  have hmode : ∀ {w'}, b.Shape kind w' → b.mode.Shape kind w' := by
    intro w' h
    cases b <;> exact h
  have hunspaced : Unspaced w → ∃ p s q, w = p ++ (s ++ q) ∧ b.mode.Spaced kind p s q :=
    fun h => ⟨w, [], [], (List.append_nil w).symm, Mode.spaced_of_unspaced h⟩
  cases h with
  | @closing blanks hblanks =>
    refine ⟨[], blanks, b.close.1, rfl, List.forall_mem_nil _, hblanks, ?_, ?_, ?_⟩
    · cases b <;> exact List.forall_mem_cons.2 ⟨rfl, List.forall_mem_singleton.2 rfl⟩
    · intro _ hnil
      cases b <;> cases hnil
    · intro _ s' _ hs'
      exact hmode (.closing hs')
  | blank hne hblanks =>
    refine ⟨[], w, [], by simp, List.forall_mem_nil _, hblanks, List.forall_mem_nil _, by simp, ?_⟩
    intro _ s' hne' hs'
    rw [List.nil_append, List.append_nil]
    exact hmode (.blank hne' hs')
  | quoted _ _ => exact (hkind rfl).elim
  | word _ h => exact hunspaced (Bracket.unspaced_of_spells h)
  | dot | atSign => exact hunspaced (List.forall_mem_singleton.2 rfl)
  | operator op _ =>
    refine hunspaced fun c hc => ?_
    have hsymbol : op.symbol.toList ⊆ ['!', '=', '<', '>'] := by
      cases op <;> decide
    have hmem := hsymbol hc
    simp only [List.mem_cons, List.not_mem_nil, or_false] at hmem
    rcases hmem with rfl | rfl | rfl | rfl <;> rfl

theorem TextShape.spaced {kind : TokenKind} {w : List Char} (h : TextShape kind w)
    (hkind : ¬ kind.Verbatim w) : ∃ p s q, w = p ++ (s ++ q) ∧ Mode.text.Spaced kind p s q := by
  cases h with
  | @opening b blanks hblanks =>
    refine ⟨b.start.1, blanks, [], by rw [List.append_nil], ?_, hblanks, List.forall_mem_nil _, ?_, ?_⟩
    · cases b <;> exact List.forall_mem_cons.2 ⟨rfl, List.forall_mem_singleton.2 rfl⟩
    · intro _ _
      cases b <;> simp [Bracket.start]
    · intro _ s' _ hs'
      rw [List.append_nil]
      exact TextShape.opening b hs'
  | text _ _ => exact (hkind trivial).elim

/-- A token outside of literals is spelled with white space at one place at most. -/
theorem Mode.Shape.spaced {mode : Mode} {kind : TokenKind} {w : List Char} (h : mode.Shape kind w)
    (hmode : mode ≠ .literal) (hkind : ¬ kind.Verbatim w) :
    ∃ p s q, w = p ++ (s ++ q) ∧ mode.Spaced kind p s q := by
  cases mode with
  | text => exact TextShape.spaced h hkind
  | expansion => exact Bracket.Shape.spaced (b := .expansion) h hkind
  | tag => exact Bracket.Shape.spaced (b := .tag) h hkind
  | literal => exact (hmode rfl).elim

theorem LiteralShape.unspaced {kind : TokenKind} {w : List Char} (h : LiteralShape kind w)
    (hkind : ¬ kind.Verbatim w) : Unspaced w := by
  cases h with
  | quoted _ => exact (hkind rfl).elim
  | number hspan _ => exact unspaced_of_spanDecimal hspan

/-- A literal does not start with white space. -/
theorem LiteralShape.head_not_blank {kind : TokenKind} {w : List Char} (h : LiteralShape kind w) :
    ∃ c rest, w = c :: rest ∧ isBlank c = false := by
  cases h with
  | quoted _ => exact ⟨'"', _, rfl, rfl⟩
  | number hspan _ =>
    cases w with
    | nil => cases hspan
    | cons c w => exact ⟨c, w, rfl, unspaced_of_spanDecimal hspan c List.mem_cons_self⟩

/-! ## The token at a place -/

/-- The scanner is in front of a token at every place on its way. -/
theorem Cursor.Yields.locate {c final : Cursor} {tokens : List Token} (h : c.Yields tokens final)
    {n : Nat} (hle : c.position ≤ n) (hlt : n < final.position) :
    ∃ before t after c₁ c₂, tokens = before ++ t :: after ∧ c.Yields before c₁ ∧
      c₁.step = .token t c₂ ∧ c₂.Yields after final ∧ c₁.position ≤ n ∧ n < c₂.position := by
  induction h with
  | nil => omega
  | @cons c next final t tokens hstep hrest ih =>
    by_cases hn : n < next.position
    · exact ⟨[], t, tokens, c, next, rfl, .nil, hstep, hrest, hle, hn⟩
    · obtain ⟨before, t', after, c₁, c₂, rfl, hbefore, hstep', hafter, hle', hlt'⟩ :=
        ih (by omega) hlt
      exact ⟨t :: before, t', after, c₁, c₂, rfl, .cons hstep hbefore, hstep', hafter, hle', hlt'⟩

/-- A comparator of the template ends at this place. -/
def BehindComparator (source : String) (n : Nat) : Prop :=
  ∃ tokens, tokenize source = .ok tokens ∧
    ∃ t ∈ tokens, (∃ op, t.kind = .operator op) ∧ t.position + t.spelling.length = n

/-- A literal is looked for only behind a comparator. -/
theorem Cursor.Yields.last_of_literal {c : Cursor} {source : String} {tokens : List Token}
    (h : (start source).Yields tokens c) (hmode : c.mode = .literal) :
    ∃ t ∈ tokens, (∃ op, t.kind = .operator op) ∧ t.position + t.spelling.length = c.position := by
  rcases List.eq_nil_or_concat' tokens with rfl | ⟨front, t, rfl⟩
  · cases h
    cases hmode
  · obtain ⟨c₁, -, hstep⟩ := h.last
    exact ⟨t, by simp, operator_of_step hstep hmode, (position_of_step hstep).2.symm⟩

/-- The template is read, and this is how it is cut at one of its tokens: what stands in front, the
layout that is passed over, the token, and the rest. -/
structure TokenAt (source : String) (nodes : List Node) (mode : Mode) (kind : TokenKind)
    (front layout w rest : List Char) : Prop where
  split : source.toList = front ++ (layout ++ (w ++ rest))
  token : ∃ tokens, tokenize source = .ok tokens ∧
    (⟨kind, front.length + layout.length, String.ofList w⟩ : Token) ∈ tokens
  shape : mode.Shape kind w
  skipped : ∀ c ∈ layout, isLayout c = true
  skips : mode ≠ .literal → layout = []
  comparator : mode = .literal → BehindComparator source front.length
  ends : (∀ value, kind ≠ .text value) → kind.EndsBefore mode.units rest
  respelled : (∀ value, kind ≠ .text value) → ∀ layout' w', (∀ c ∈ layout', isLayout c = true) →
    (mode ≠ .literal → layout' = []) → mode.Shape kind w' →
      parse (String.ofList (front ++ (layout' ++ w') ++ rest)) = .ok nodes

/-- Every place of a template that is read is covered by a token or by the layout in front of one. -/
theorem exists_tokenAt {source : String} {nodes : List Node} (h : parse source = .ok nodes) {n : Nat}
    (hn : n < source.length) :
    ∃ mode kind front layout w rest, TokenAt source nodes mode kind front layout w rest ∧
      front.length ≤ n ∧ n < front.length + layout.length + w.length := by
  obtain ⟨tokens, d, htokens, hreached, hpush, hsettle⟩ := reached_of_parse h
  obtain ⟨tokens', htokens', hspelled⟩ := allSpelled_of_parse h
  obtain rfl : tokens = tokens' := Except.ok.inj (htokens.symm.trans htokens')
  have hmode : d.spot.mode = .text := (Draft.mode_settle hsettle).symm
  have hyields := hreached.yields (Spot.endsBefore_of_text hmode _)
  rw [List.append_nil, String.length_toList] at hyields
  change (Cursor.start source).Yields tokens _ at hyields
  obtain ⟨before, t, after, c, next, rfl, hbefore, hstep, hafter, hle, hlt⟩ :=
    hyields.locate (Nat.zero_le n) hn
  obtain ⟨d₁, hpush₁, hpushRest⟩ := Draft.pushAll_append_eq_ok_iff.1 hpush
  obtain ⟨d₂, ht, hpushAfter⟩ := Draft.pushAll_cons_eq_ok_iff.1 hpushRest
  obtain ⟨front, hreached₁, hsource, hc⟩ := reached_of_yields hbefore hpush₁
  obtain ⟨layout, w, hrest, hlayout, hskips, hscan, hplace, hnext⟩ := Cursor.step_eq_token_cases hstep
  have hposition : c.position = front.length := by rw [hc]
  have hmode₁ : c.mode = d₁.spot.mode := by rw [hc]
  have hmode₂ : next.mode = d₂.spot.mode := by rw [Draft.mode_push ht, ← hmode₁, hnext]
  have hshape := Mode.shape_of_scan hscan
  have hends := Draft.endsBefore_of_yields hafter hmode₂ hpushAfter hmode
  have hscans := hafter.scans
  rw [hmode₂] at hscans
  rw [hrest] at hreached₁
  rw [hmode₁] at hshape hskips
  have hat : TokenAt source nodes d₁.spot.mode t.kind front layout w next.rest :=
    { split := by rw [← hsource, hrest, List.append_assoc layout]
      token := by
        rw [← hposition, ← hplace]
        exact ⟨_, htokens, List.mem_append_right _ List.mem_cons_self⟩
      shape := hshape
      skipped := hlayout
      skips := hskips
      comparator := by
        intro hliteral
        obtain ⟨t', ht', hoperator, hend⟩ := hbefore.last_of_literal (hmode₁.trans hliteral)
        exact ⟨_, htokens, t', List.mem_append_left _ ht', hoperator, hend.trans hposition⟩
      ends := by
        intro htext
        obtain ⟨base, hbase, htake⟩ := Draft.push_eq_ok_iff.1 ht
        rw [← Draft.mode_settle hbase]
        exact Draft.endsBefore_take? htake htext hends
      respelled := by
        intro htext layout' w' hlayout' hskips' hshape'
        have hstands : t.position = front.length + layout.length := by
          rw [← hposition, congrArg Token.position hplace]
        exact parse_of_respelled htext hshape hskips hshape' hskips' hspelled hreached₁ hstands ht
          hends hscans hlayout' }
  have hend : next.position = front.length + layout.length + w.length := by
    rw [← hposition]
    exact congrArg Cursor.position hnext
  exact ⟨_, _, _, _, _, _, hat, hposition ▸ hle, hend ▸ hlt⟩

/-! ## Gaps -/

/-- A run of white space of a template that stands neither in a text nor in quotes, and so in a bracket,
in between of other characters. -/
structure Gap (source : String) (front run back : List Char) : Prop
    extends MaximalRun front run back where
  split : source.toList = front ++ (run ++ back)
  outside : ∃ tokens, tokenize source = .ok tokens ∧
    ∀ t ∈ tokens, t.kind.Verbatim t.spelling.toList →
      t.position + t.spelling.length ≤ front.length ∨ front.length + run.length ≤ t.position

section

variable {source : String} {nodes : List Node} {mode : Mode} {kind : TokenKind}
  {front run back cs layout w rest run' : List Char}

/-- A text or a name in quotes does not reach into a gap. -/
theorem TokenAt.outside (h : TokenAt source nodes mode kind cs layout w rest)
    (hgap : Gap source front run back) (hkind : kind.Verbatim w) :
    cs.length + layout.length + w.length ≤ front.length ∨
      front.length + run.length ≤ cs.length + layout.length := by
  obtain ⟨tokens, htokens, houtside⟩ := hgap.outside
  obtain ⟨tokens', htokens', ht⟩ := h.token
  obtain rfl : tokens' = tokens := Except.ok.inj (htokens'.symm.trans htokens)
  have hverbatim := houtside _ ht (by simpa using hkind)
  simpa using hverbatim

/-- Behind the white space of a token no other white space stands. -/
theorem TokenAt.behind_spaced (h : TokenAt source nodes mode kind cs layout w rest) {p s q : List Char}
    (hspaced : mode.Spaced kind p s q) (hne : s ≠ []) :
    ∀ c ∈ (q ++ rest).head?, isBlank c = false := by
  cases q with
  | cons d q =>
    rintro _ ⟨⟩
    exact hspaced.behind d List.mem_cons_self
  | nil =>
    have hkind := hspaced.ends hne rfl
    simp only [List.mem_cons, List.not_mem_nil, or_false] at hkind
    have hstarts : StartsWord rest := by
      rcases hkind with rfl | rfl | rfl <;> exact h.ends nofun
    obtain ⟨d, rest, rfl, hd, -⟩ := hstarts
    rintro _ ⟨⟩
    exact hd

/-- A gap that starts in the layout in front of a literal is this layout. -/
theorem TokenAt.layout_eq (h : TokenAt source nodes .literal kind cs layout w rest)
    (hgap : Gap source (cs ++ front) run back) (hcut : layout ++ (w ++ rest) = front ++ (run ++ back))
    (hlt : front.length < layout.length + w.length) :
    front = [] ∧ run = layout ∧ back = w ++ rest := by
  have hmax := hgap.toMaximalRun.drop
  have hlayout : ∀ c ∈ layout, isBlank c = true := fun c hc => isBlank_of_isLayout (h.skipped c hc)
  have hhead : ∀ c ∈ (w ++ rest).head?, isBlank c = false := by
    obtain ⟨c, w, rfl, hc⟩ := LiteralShape.head_not_blank h.shape
    rintro _ ⟨⟩
    exact hc
  by_cases hkind : kind.Verbatim w
  · have hrun := List.length_pos_iff.2 hgap.ne_nil
    have hbefore := (h.outside hgap hkind).resolve_left (by simp; omega)
    rw [List.length_append] at hbefore
    exact (hmax.eq_of_overlap (p := []) (q := []) hcut (List.forall_mem_nil _) hlayout
      (List.forall_mem_nil _) (fun _ => hhead) (by simp; omega)).2
  · have hw := LiteralShape.unspaced h.shape hkind
    exact (hmax.eq_of_overlap (p := []) hcut (List.forall_mem_nil _) hlayout hw (fun _ => hhead)
      (by simpa using hlt)).2

/-- A gap that starts in a token, or in the layout in front of it, is all of the white space there, and
another run in its place is another spelling of the token. -/
theorem TokenAt.respaced (h : TokenAt source nodes mode kind cs layout w rest)
    (hgap : Gap source front run back) (hle : cs.length ≤ front.length)
    (hlt : front.length < cs.length + layout.length + w.length) (hne : run' ≠ [])
    (hblank : ∀ c ∈ run', isBlank c = true)
    (hlayout : BehindComparator source front.length → ∀ c ∈ run', isLayout c = true) :
    ∃ layout' w', front ++ (run' ++ back) = cs ++ (layout' ++ w') ++ rest ∧
      (∀ c ∈ layout', isLayout c = true) ∧ (mode ≠ .literal → layout' = []) ∧
        mode.Shape kind w' ∧ ∀ value, kind ≠ .text value := by
  obtain ⟨f, rfl, hcut⟩ : ∃ f, front = cs ++ f ∧ layout ++ (w ++ rest) = f ++ (run ++ back) := by
    rcases List.append_eq_append_iff.1 (h.split.symm.trans hgap.split) with
      ⟨f, hfront, hcut⟩ | ⟨tail, rfl, hcut⟩
    · exact ⟨f, hfront, hcut⟩
    · rw [List.length_append] at hle
      obtain rfl : tail = [] := List.length_eq_zero_iff.1 (by omega)
      exact ⟨[], by simp, hcut.symm⟩
  rw [List.length_append] at hlt
  by_cases hliteral : mode = .literal
  · subst hliteral
    obtain ⟨rfl, rfl, rfl⟩ := h.layout_eq hgap hcut (by omega)
    rw [List.append_nil] at hlayout ⊢
    refine ⟨run', w, by simp, hlayout (h.comparator rfl), fun hmode => (hmode rfl).elim, h.shape, ?_⟩
    rintro value rfl
    cases h.shape
  · obtain rfl := h.skips hliteral
    have hkind : ¬ kind.Verbatim w := by
      intro hkind
      have hrun := List.length_pos_iff.2 hgap.ne_nil
      have := h.outside hgap hkind
      simp only [List.length_append, List.length_nil] at this hlt
      omega
    obtain ⟨p, s, q, rfl, hspaced⟩ := h.shape.spaced hliteral hkind
    obtain ⟨hs, rfl, rfl, rfl⟩ := hgap.toMaximalRun.drop.eq_of_overlap
      (by simpa only [List.nil_append, List.append_assoc] using hcut) hspaced.before hspaced.blank
      hspaced.behind (h.behind_spaced hspaced) (by simp at hlt; omega)
    refine ⟨[], _, by simp, List.forall_mem_nil _, fun _ => rfl, hspaced.respelled hs run' hne hblank, ?_⟩
    rintro value rfl
    exact hkind trivial

end

/-! ## Behind a comparator -/

/-- White space that is no layout is not passed over in front of a literal. -/
theorem Cursor.step_of_blank {layout more : List Char} {c : Char} (position : Nat)
    (hlayout : ∀ d ∈ layout, isLayout d = true) (hblank : isBlank c = true)
    (hc : isLayout c = false) :
    step ⟨.literal, position, layout ++ c :: more⟩ =
      .fault (.fault (.expectedLiteral c)) ⟨.text, position + layout.length, c :: more⟩ := by
  have htake : (layout ++ c :: more).takeWhile isLayout = layout := by
    rw [List.takeWhile_append_of_pos hlayout, List.takeWhile_cons, hc]
    simp
  have hskip : skipLayout ⟨.literal, position, layout ++ c :: more⟩ =
      ⟨.literal, position + layout.length, c :: more⟩ := by
    unfold skipLayout
    rw [if_pos rfl]
    simp [advance, htake]
  have hrules : Mode.literal.rules.findSome? (· (c :: more)) = none := by
    have hquote : c ≠ '"' := by
      rintro rfl
      cases hblank
    simp [Mode.rules, Rule.quotedText, Units.spanQuoted, hquote]
  have hnumber : number (c :: more) = none := by
    unfold number
    rw [Option.map_eq_none_iff, Option.eq_none_iff_forall_ne_some]
    rintro ⟨d, rest⟩ hspan
    rcases head_of_spanDecimal hspan with hdigit | hsign
    · rw [digitValue?_of_isBlank hblank] at hdigit
      cases hdigit
    · simp only [List.mem_cons, List.not_mem_nil, or_false] at hsign
      rcases hsign with rfl | rfl | rfl <;> cases hblank
  have hscan : Mode.literal.scan (c :: more) = .error (.fault (.expectedLiteral c)) := by
    unfold Mode.scan
    rw [hrules]
    simp only [if_true, hnumber]
    rfl
  unfold step
  simp only [hskip]
  rw [if_neg (by simp), hscan]
  rfl

/-- Behind a comparator white space that is no layout is reported where a literal should start. -/
theorem parse_behind_comparator {source : String} {nodes : List Node} {front rest layout more : List Char}
    {c : Char} (h : parse source = .ok nodes) (hsource : source.toList = front ++ rest)
    (hbehind : BehindComparator source front.length) (hlayout : ∀ d ∈ layout, isLayout d = true)
    (hblank : isBlank c = true) (hc : isLayout c = false) :
    ∃ e, parse (String.ofList (front ++ (layout ++ c :: more))) = .error (.syntaxError e) ∧
      e.fault = .expectedLiteral c ∧ e.position = front.length + layout.length := by
  obtain ⟨tokens, htokens, t, ht, ⟨op, hop⟩, hend⟩ := hbehind
  obtain ⟨tokens', d, htokens', -, hpush, -⟩ := reached_of_parse h
  obtain rfl : tokens = tokens' := Except.ok.inj (htokens.symm.trans htokens')
  obtain ⟨_, _, hyields, -⟩ := yields_of_tokenize htokens
  obtain ⟨before, after, rfl⟩ := List.append_of_mem ht
  rw [List.append_cons] at hyields hpush
  obtain ⟨c₁, hfront, -⟩ := hyields.split
  obtain ⟨d₁, hpush₁, -⟩ := Draft.pushAll_append_eq_ok_iff.1 hpush
  obtain ⟨c₀, -, hstep⟩ := hfront.last
  have hafter := Cursor.mode_of_step hstep
  have hposition := (Cursor.position_of_step hstep).2.symm
  obtain ⟨cs, hreached, hcut, hc₁⟩ := reached_of_yields hfront hpush₁
  have hmode : d₁.spot.mode = .literal := by
    rw [hc₁, hop] at hafter
    exact hafter
  have hlength : cs.length = front.length := by
    rw [← hend, hposition, hc₁]
  obtain ⟨rfl, -⟩ := List.append_inj (hcut.trans hsource) hlength
  have hleads := hreached.leads (Spot.ne_content_of_literal hmode)
  have hhead : (layout ++ c :: more).head? ≠ some '=' := by
    cases layout with
    | nil =>
      rintro ⟨⟩
      cases hblank
    | cons d layout =>
      rintro ⟨⟩
      cases hlayout '=' List.mem_cons_self
  have hread := hleads.yields _ (Spot.endsBefore_of_literal hmode hhead)
  have hstep := @Cursor.step_of_blank layout more c cs.length hlayout hblank hc
  rw [hmode] at hread
  have hstart : Cursor.start (String.ofList (cs ++ (layout ++ c :: more))) =
      ⟨.text, 0, cs ++ (layout ++ c :: more)⟩ := by
    rw [Cursor.start, String.toList_ofList]
  rw [← hstart] at hread
  exact ⟨_, parse_of_fault hread hleads.pushed hstep, rfl, rfl⟩

/-! ## Templates -/

/-- Other white space in a gap leaves a template as it is, except that behind a comparator only layout
may stand: any other white space is refused there. -/
theorem parse_respaced {source : String} {nodes : List Node} {front run back run' : List Char}
    (h : parse source = .ok nodes) (hgap : Gap source front run back) (hne : run' ≠ [])
    (hblank : ∀ c ∈ run', isBlank c = true) :
    ((BehindComparator source front.length → ∀ c ∈ run', isLayout c = true) →
      parse (String.ofList (front ++ (run' ++ back))) = .ok nodes) ∧
    ∀ layout c more, BehindComparator source front.length → run' = layout ++ c :: more →
      (∀ d ∈ layout, isLayout d = true) → isLayout c = false →
      ∃ e, parse (String.ofList (front ++ (run' ++ back))) = .error (.syntaxError e) ∧
        e.fault = .expectedLiteral c ∧ e.position = front.length + layout.length := by
  refine ⟨?_, ?_⟩
  · intro hlayout
    have hrun := List.length_pos_iff.2 hgap.ne_nil
    have hlength : front.length < source.length := by
      rw [← String.length_toList, hgap.split]
      simp only [List.length_append]
      omega
    obtain ⟨mode, kind, cs, layout, w, rest, hat, hle, hlt⟩ := exists_tokenAt h hlength
    obtain ⟨layout', w', hcut, hlayout', hskips, hshape, htext⟩ :=
      hat.respaced hgap hle hlt hne hblank hlayout
    rw [hcut]
    exact hat.respelled htext layout' w' hlayout' hskips hshape
  · rintro layout c more hbehind rfl hlayout hc
    rw [List.append_assoc, List.cons_append]
    exact parse_behind_comparator h hgap.split hbehind hlayout (hblank c (by simp)) hc

/-- A space between a comparator and its literal. -/
theorem gap_before_literal :
    Gap "\x7b@ if a= \"\" @\x7d\x7b@ end if @\x7d" "\x7b@ if a=".toList [' ']
        "\"\" @\x7d\x7b@ end if @\x7d".toList ∧
      BehindComparator "\x7b@ if a= \"\" @\x7d\x7b@ end if @\x7d" "\x7b@ if a=".toList.length := by
  have htokens : tokenize "\x7b@ if a= \"\" @\x7d\x7b@ end if @\x7d" =
      .ok [⟨.openTag, 0, "\x7b@ "⟩, ⟨.keyword .ifWord, 3, "if"⟩, ⟨.blank, 5, " "⟩,
        ⟨.segment "a", 6, "a"⟩, ⟨.operator .equal, 7, "="⟩, ⟨.literal (.text ""), 9, "\"\""⟩,
        ⟨.closeTag, 11, " @\x7d"⟩, ⟨.openTag, 14, "\x7b@ "⟩, ⟨.keyword .endWord, 17, "end"⟩,
        ⟨.blank, 20, " "⟩, ⟨.keyword .ifWord, 21, "if"⟩, ⟨.closeTag, 23, " @\x7d"⟩] :=
    tokenize_of_within 40 rfl
  refine ⟨?_, _, htokens, ⟨.operator .equal, 7, "="⟩, by simp, ⟨.equal, rfl⟩, rfl⟩
  exact
    { ne_nil := List.cons_ne_nil _ _
      blank := List.forall_mem_singleton.2 rfl
      front_ends := by
        rintro _ ⟨⟩
        rfl
      back_starts := by
        rintro _ ⟨⟩
        rfl
      split := rfl
      outside := ⟨_, htokens, by decide⟩ }

/-- A tab and a line end may stand there as well, a vertical tab behind them may not. -/
theorem parse_respaced_before_literal :
    parse (String.ofList ("\x7b@ if a=".toList ++ (['\t', '\n'] ++
        "\"\" @\x7d\x7b@ end if @\x7d".toList))) =
          .ok [.block (.conditional ⟨⟨[], "a"⟩, .equal, .text ""⟩) []] ∧
      ∃ e, parse (String.ofList ("\x7b@ if a=".toList ++ (['\t', '\n', '\x0b'] ++
        "\"\" @\x7d\x7b@ end if @\x7d".toList))) = .error (.syntaxError e) ∧
          e.fault = .expectedLiteral '\x0b' ∧ e.position = 10 := by
  have hparse : parse "\x7b@ if a= \"\" @\x7d\x7b@ end if @\x7d" =
      .ok [.block (.conditional ⟨⟨[], "a"⟩, .equal, .text ""⟩) []] :=
    parse_of_within 40 rfl
  obtain ⟨hgap, hbehind⟩ := gap_before_literal
  have hlayout : ∀ c ∈ ['\t', '\n'], isLayout c = true :=
    List.forall_mem_cons.2 ⟨rfl, List.forall_mem_singleton.2 rfl⟩
  have hblank : ∀ c ∈ ['\t', '\n'], isBlank c = true := fun c hc => isBlank_of_isLayout (hlayout c hc)
  have hblank' : ∀ c ∈ ['\t', '\n', '\x0b'], isBlank c = true :=
    List.forall_mem_append.2 ⟨hblank, List.forall_mem_singleton.2 rfl⟩
  exact ⟨(parse_respaced hparse hgap (by simp) hblank).1 fun _ => hlayout,
    (parse_respaced hparse hgap (by simp) hblank').2 ['\t', '\n'] '\x0b' [] hbehind rfl hlayout rfl⟩

/-- A form feed is white space, but may not stand there. -/
theorem parse_respaced_form_feed :
    Gap "\x7b@ if a= \"\" @\x7d\x7b@ end if @\x7d" "\x7b@ if a=".toList [' ']
        "\"\" @\x7d\x7b@ end if @\x7d".toList ∧ isBlank '\x0c' = true ∧
      (∃ nodes, parse "\x7b@ if a= \"\" @\x7d\x7b@ end if @\x7d" = .ok nodes) ∧
      ∃ e, parse (String.ofList ("\x7b@ if a=".toList ++ (['\x0c'] ++
        "\"\" @\x7d\x7b@ end if @\x7d".toList))) = .error (.syntaxError e) ∧ e.position = 8 := by
  have hparse : parse "\x7b@ if a= \"\" @\x7d\x7b@ end if @\x7d" =
      .ok [.block (.conditional ⟨⟨[], "a"⟩, .equal, .text ""⟩) []] :=
    parse_of_within 40 rfl
  have hrefused : parse (String.ofList ("\x7b@ if a=".toList ++ (['\x0c'] ++
      "\"\" @\x7d\x7b@ end if @\x7d".toList))) =
        .error (.syntaxError ⟨.expectedLiteral '\x0c', 8, 1, 9⟩) :=
    parse_of_within 40 rfl
  exact ⟨gap_before_literal.1, rfl, ⟨_, hparse⟩, _, hrefused, rfl⟩

end MailMerge.Markup
