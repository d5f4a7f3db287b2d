/-
Which tokens stand where. Brackets open and close in turn and never nest; in between of them there is
plain text, and inside of them what names, keywords and comparisons are made of. A comparator and a
literal always stand together, and the white space at the edges of a bracket belongs to it.

All of this is read off the mode of the scanner. In a bracket it stays until the closing one is cut,
so the mode at a place tells whether the brackets in front of it are closed.
-/
import Mathlib.Data.List.Basic
import Mathlib.Data.List.Chain
import Mathlib.Data.List.TakeWhile
import MailMerge.Proofs.Markup.WellFormed

namespace MailMerge.Markup

open MailMerge.Text

variable {b : Bracket} {kind : TokenKind} {w : List Char} {c c' next last : Cursor} {t t' : Token}
  {tokens : List Token} {source : String}

/-! ## Kinds of tokens -/

/-- The tokens that may stand in a bracket; keywords and comparisons stand in block tags only. -/
def Bracket.admits (b : Bracket) : TokenKind → Bool
  | .segment _ | .dot | .atSign | .blank => true
  | .keyword _ | .operator _ | .literal _ => b = .tag
  | .text _ | .openExpansion | .closeExpansion | .openTag | .closeTag => false

namespace TokenKind

/-- The four tokens that open and close brackets. -/
def isBracket : TokenKind → Bool
  | openExpansion | closeExpansion | openTag | closeTag => true
  | _ => false

/-- The tokens that may stand only outside of brackets. -/
def isOuter : TokenKind → Bool
  | text _ | openExpansion | openTag => true
  | _ => false

end TokenKind

/-- Behind every opening bracket stands its closing one. -/
def AllClosed (kinds : List TokenKind) : Prop :=
  ∀ (b : Bracket) before after, kinds = before ++ b.start.2 :: after → b.close.2 ∈ after

/-- Brackets that open and close in turn; the last one may be left open. -/
inductive Alternating : List TokenKind → Prop
  | nil : Alternating []
  | opened (b : Bracket) : Alternating [b.start.2]
  | closed (b : Bracket) {kinds : List TokenKind} : Alternating kinds →
    Alternating (b.start.2 :: b.close.2 :: kinds)

/-- Where each kind of token stands among the tokens of a template. -/
structure Disciplined (kinds : List TokenKind) : Prop where
  outside : ∀ front kind back, kinds = front ++ kind :: back → kind.isOuter → AllClosed front
  texts : kinds.IsChain TokenKind.Apart
  inside : ∀ (b : Bracket) front between back, kinds = front ++ b.start.2 :: (between ++ back) →
    b.close.2 ∉ between → ∀ kind ∈ between, b.admits kind
  brackets : Alternating (kinds.filter (·.isBracket))
  literals : ∀ front value back, kinds = front ++ .literal value :: back →
    ∃ op, front.getLast? = some (.operator op)
  operators : ∀ front op back, kinds = front ++ .operator op :: back →
    back = [] ∨ ∃ value, back.head? = some (.literal value)
  blanks : kinds.IsChain fun kind next => ∀ b : Bracket,
    (kind = b.start.2 → next ≠ .blank) ∧ (next = b.close.2 → kind ≠ .blank)

/-! ## Steps of the scanner -/

/-- The bracket in which the scanner stands in a mode. -/
def Mode.bracket? : Mode → Option Bracket
  | .text => none
  | .expansion => some .expansion
  | .tag | .literal => some .tag

theorem Mode.bracket?_mode (b : Bracket) : b.mode.bracket? = some b := by
  cases b <;> rfl

theorem Mode.eq_text_of_bracket? {mode : Mode} (h : mode.bracket? = none) : mode = .text := by
  cases mode with
  | text => rfl
  | expansion | tag | literal => cases h

theorem Bracket.after_start (b : Bracket) (mode : Mode) : mode.after b.start.2 = b.mode := by
  cases b <;> rfl

theorem Bracket.after_close (b : Bracket) (mode : Mode) : mode.after b.close.2 = .text := by
  cases b <;> rfl

/-- What may stand in a bracket is neither a bracket nor a text. -/
theorem Bracket.not_outer_of_admits (h : b.admits kind) :
    kind.isBracket = false ∧ kind.isOuter = false := by
  cases kind with
  | text _ | openExpansion | closeExpansion | openTag | closeTag => cases h
  | _ => exact ⟨rfl, rfl⟩

/-- In a bracket only its closing one ends it, and everything else is what it admits. -/
theorem Bracket.Shape.admits (h : b.Shape kind w) :
    kind = b.close.2 ∨ b.admits kind ∧ (b.mode.after kind).bracket? = some b := by
  cases h with
  | closing _ => exact .inl rfl
  | blank _ _ | dot | atSign => exact .inr ⟨rfl, Mode.bracket?_mode b⟩
  | quoted _ _ => exact .inr ⟨rfl, Mode.bracket?_mode b⟩
  | operator op hb =>
    subst hb
    exact .inr ⟨rfl, rfl⟩
  | word _ _ =>
    refine .inr ?_
    cases b with
    | expansion => exact ⟨rfl, rfl⟩
    | tag =>
      rcases Bracket.tag.word_cases w with ⟨name, hword⟩ | ⟨k, hword⟩
      · rw [hword]
        exact ⟨rfl, rfl⟩
      · rw [hword]
        exact ⟨rfl, rfl⟩

namespace Cursor

/-- Where a literal is looked for nothing else is cut. -/
theorem literal_of_step (h : c.step = .token t next) :
    (∃ value, t.kind = .literal value) ↔ c.mode = .literal := by
  have hshape := shape_of_step h
  constructor
  · rintro ⟨value, hkind⟩
    rw [hkind] at hshape
    exact Mode.eq_literal_of_shape hshape
  · intro hmode
    rw [hmode] at hshape
    generalize t.kind = kind at hshape ⊢
    generalize t.spelling.toList = w at hshape
    cases hshape with
    | quoted _ | number _ _ => exact ⟨_, rfl⟩

/-- In a bracket the scanner leaves it behind its closing one, or it cuts what may stand there and
stays. -/
theorem step_inside (h : c.step = .token t next) (hb : c.mode.bracket? = some b) :
    t.kind = b.close.2 ∧ next.mode = .text ∨ b.admits t.kind ∧ next.mode.bracket? = some b := by
  have hbracket : c.mode = b.mode →
      t.kind = b.close.2 ∧ next.mode = .text ∨ b.admits t.kind ∧ next.mode.bracket? = some b := by
    intro hmode
    obtain ⟨-, hshape, hnext, -⟩ := step_bracket h hmode
    rw [hnext]
    rcases hshape.admits with hclose | hadmits
    · rw [hclose]
      exact .inl ⟨rfl, b.after_close _⟩
    · exact .inr hadmits
  cases hmode : c.mode with
  | text =>
    rw [hmode] at hb
    cases hb
  | expansion | tag =>
    rw [hmode] at hb hbracket
    cases hb
    exact hbracket rfl
  | literal =>
    -- The literal leads back to the block tag that its comparator stands in.
    rw [hmode] at hb
    cases hb
    obtain ⟨value, hkind⟩ := (literal_of_step h).2 hmode
    rw [mode_of_step h, hkind]
    exact .inr ⟨rfl, rfl⟩

/-- Outside of brackets the scanner cuts a text, or it enters a bracket. -/
theorem step_outside (h : c.step = .token t next) (hmode : c.mode = .text) :
    (∃ value, t.kind = .text value) ∧ next.mode = .text ∨
      ∃ b : Bracket, t.kind = b.start.2 ∧ next.mode.bracket? = some b := by
  have hshape := shape_of_step h
  rw [mode_of_step h]
  rw [hmode] at hshape ⊢
  generalize t.kind = kind at hshape
  generalize t.spelling.toList = w at hshape
  cases hshape with
  | text _ _ => exact .inl ⟨⟨_, rfl⟩, rfl⟩
  | opening b _ => exact .inr ⟨b, rfl, by rw [b.after_start, Mode.bracket?_mode]⟩

/-- Behind an opening bracket the scanner stands in it. -/
theorem bracket?_of_start (h : c.step = .token t next) (hstart : t.kind = b.start.2) :
    next.mode.bracket? = some b := by
  rw [mode_of_step h, hstart, b.after_start, Mode.bracket?_mode]

/-- Neither texts nor opening brackets are cut in a bracket. -/
theorem mode_of_outer (h : c.step = .token t next) (houter : t.kind.isOuter) : c.mode = .text := by
  apply Mode.eq_text_of_bracket?
  rw [Option.eq_none_iff_forall_ne_some]
  intro b hb
  rcases step_inside h hb with ⟨hclose, -⟩ | ⟨hadmits, -⟩
  · rw [hclose] at houter
    cases b <;> cases houter
  · rw [(Bracket.not_outer_of_admits hadmits).2] at houter
    cases houter

end Cursor

/-! ## White space at the edges of brackets -/

/-- An opening bracket is cut with all the white space behind it. -/
theorem Bracket.blanks_of_scan {cs : List Char} {x : Lexeme} (h : Mode.text.scan cs = .ok x)
    (hkind : x.kind = b.start.2) : leadingBlanks x.rest = [] := by
  have hopening : ∀ kind bracket, Rule.opening kind bracket cs = some x →
      leadingBlanks x.rest = [] := by
    intro kind bracket hx
    obtain ⟨y, -, rfl⟩ := Option.map_eq_some_iff.1 hx
    exact List.takeWhile_eq_nil_iff.2 fun hpos => List.dropWhile_get_zero_not _ _ hpos
  unfold Mode.scan at h
  split at h
  · rename_i y hy
    cases h
    obtain ⟨rule, hrule, hx⟩ := List.exists_of_findSome?_eq_some hy
    simp only [Mode.rules, List.mem_cons, List.not_mem_nil, or_false] at hrule
    rcases hrule with rfl | rfl | rfl
    · exact hopening _ _ hx
    · exact hopening _ _ hx
    · unfold Rule.run at hx
      split at hx
      · cases hx
      · cases hx
        cases b <;> cases hkind
  · rw [if_neg (by decide)] at h
    cases h

theorem Bracket.close_injective {b' : Bracket} (h : b'.close.2 = b.close.2) : b' = b := by
  cases b <;> cases b' <;> simp [close] at h ⊢

/-- A bracket is closed by its own closing one, in front of which there may be white space. -/
theorem Bracket.Shape.closed {b' : Bracket} (h : b.Shape b'.close.2 w) :
    b' = b ∧ ∃ blanks, (∀ c ∈ blanks, isBlank c = true) ∧ w = blanks ++ b.close.1 := by
  generalize hkind : b'.close.2 = kind at h
  cases h with
  | @closing blanks hblanks =>
    exact ⟨close_injective hkind, blanks, hblanks, rfl⟩
  | word _ _ =>
    rcases b.word_cases w with ⟨_, h⟩ | ⟨_, h⟩ <;> rw [h] at hkind <;> cases b' <;> cases hkind
  | blank _ _ | quoted _ _ | dot | atSign | operator _ _ => cases b' <;> cases hkind

namespace Cursor

/-- White space is a token of its own in brackets only. -/
theorem mode_of_blank (h : c.step = .token t next) (hblank : t.kind = .blank) :
    ∃ b : Bracket, c.mode = b.mode := by
  cases hmode : c.mode with
  | expansion => exact ⟨.expansion, rfl⟩
  | tag => exact ⟨.tag, rfl⟩
  | text =>
    rcases step_outside h hmode with ⟨⟨_, hkind⟩, -⟩ | ⟨b, hkind, -⟩ <;> rw [hblank] at hkind
    · cases hkind
    · cases b <;> cases hkind
  | literal =>
    obtain ⟨_, hkind⟩ := (literal_of_step h).2 hmode
    cases hblank.symm.trans hkind

theorem not_blank_of_start (h : c.step = .token t next) (hnext : next.step = .token t' last)
    (hstart : t.kind = b.start.2) : t'.kind ≠ .blank := by
  intro hblank
  have hmode : c.mode = .text := mode_of_outer h (by rw [hstart]; cases b <;> rfl)
  obtain ⟨_, w, -, -, -, hscan, -, -⟩ := step_eq_token_cases h
  obtain ⟨b', hmode'⟩ := mode_of_blank hnext hblank
  obtain ⟨hrest, hshape, -, -⟩ := step_bracket hnext hmode'
  obtain ⟨hne, hblanks⟩ := (Bracket.spelling_of_shape hshape).1 hblank
  -- The white space would have been cut with the bracket.
  rw [hmode] at hscan
  have hnone : leadingBlanks next.rest = [] := Bracket.blanks_of_scan hscan hstart
  obtain ⟨d, w', hw⟩ := List.exists_cons_of_ne_nil hne
  rw [hw, List.forall_mem_cons] at hblanks
  rw [hrest, hw, leadingBlanks, List.cons_append, List.takeWhile_cons_of_pos hblanks.1] at hnone
  cases hnone

theorem not_blank_of_close (h : c.step = .token t next) (hnext : next.step = .token t' last)
    (hclose : t'.kind = b.close.2) : t.kind ≠ .blank := by
  intro hblank
  obtain ⟨b', hmode⟩ := mode_of_blank h hblank
  obtain ⟨hrest, hshape, hafter, hscan⟩ := step_bracket h hmode
  have hmode' : next.mode = b'.mode := by
    rw [hafter, hblank]
    cases b' <;> rfl
  obtain ⟨hrest', hshape', -, -⟩ := step_bracket hnext hmode'
  rw [hclose] at hshape'
  obtain ⟨rfl, more, hmore, hspelled⟩ := hshape'.closed
  -- The white space would have been cut with the bracket.
  have hblanks := (Bracket.spelling_of_shape hshape).1 hblank
  have hcut := @Bracket.scan_closing b (t.spelling.toList ++ more)
    (List.forall_mem_append.2 ⟨hblanks.2, hmore⟩) last.rest
  rw [List.append_assoc, List.append_assoc, ← List.append_assoc more, ← hspelled, ← hrest',
    ← hrest, hscan, hblank] at hcut
  cases b <;> cases hcut

end Cursor

/-! ## Runs of the scanner -/

namespace Cursor.Yields

/-- A bracket is left only behind its closing one. -/
theorem inside (h : c.Yields tokens c') (hb : c.mode.bracket? = some b)
    (hopen : b.close.2 ∉ tokens.map (·.kind)) :
    (∀ kind ∈ tokens.map (·.kind), b.admits kind) ∧ c'.mode.bracket? = some b := by
  induction h with
  | nil => exact ⟨List.forall_mem_nil _, hb⟩
  | @cons c next final t tokens hstep _ ih =>
    rw [List.map_cons, List.mem_cons, not_or] at hopen
    rcases step_inside hstep hb with ⟨hclose, -⟩ | ⟨hadmits, hnext⟩
    · exact (hopen.1 hclose.symm).elim
    · obtain ⟨hall, hmode⟩ := ih hnext hopen.2
      exact ⟨List.forall_mem_cons.2 ⟨hadmits, hall⟩, hmode⟩

/-- A run leads over each of its tokens. -/
theorem cut {front back : List TokenKind} (h : c.Yields tokens c')
    (heq : tokens.map (·.kind) = front ++ kind :: back) :
    ∃ before t after c₁ c₂, front = before.map (·.kind) ∧ t.kind = kind ∧
      after.map (·.kind) = back ∧ c.Yields before c₁ ∧ c₁.step = .token t c₂ ∧
        c₂.Yields after c' := by
  obtain ⟨before, rest, rfl, rfl, hrest⟩ := List.map_eq_append_iff.1 heq
  obtain ⟨t, after, rfl, hkind, hafter⟩ := List.map_eq_cons_iff.1 hrest
  obtain ⟨c₁, hbefore, hback⟩ := h.split
  cases hback with
  | cons hstep hback => exact ⟨before, t, after, c₁, _, rfl, hkind, hafter, hbefore, hstep, hback⟩

/-- Outside of brackets all that were opened are closed. -/
theorem allClosed (h : c.Yields tokens c') (hmode : c'.mode = .text) :
    AllClosed (tokens.map (·.kind)) := by
  intro b before after heq
  obtain ⟨_, t, _, _, _, -, ht, rfl, -, hstep, hafter⟩ := h.cut heq
  by_contra hopen
  have hinside := (hafter.inside (bracket?_of_start hstep ht) hopen).2
  rw [hmode] at hinside
  cases hinside

/-- Brackets open and close in turn, also behind one that is open. -/
theorem alternating (h : c.Yields tokens c') :
    (c.mode = .text → Alternating ((tokens.map (·.kind)).filter (·.isBracket))) ∧
      ∀ b : Bracket, c.mode.bracket? = some b →
        Alternating (b.start.2 :: (tokens.map (·.kind)).filter (·.isBracket)) := by
  -- A bracket that is open is put in front of what is cut; the closing one makes a pair with it.
  induction h with
  | nil => exact ⟨fun _ => .nil, fun b _ => .opened b⟩
  | @cons c next final t tokens hstep _ ih =>
    rw [List.map_cons]
    constructor
    · intro hmode
      rcases step_outside hstep hmode with ⟨⟨value, hkind⟩, hnext⟩ | ⟨b, hkind, hnext⟩
      · rw [hkind]
        exact ih.1 hnext
      · rw [hkind, List.filter_cons_of_pos (by cases b <;> rfl)]
        exact ih.2 b hnext
    · intro b hb
      rcases step_inside hstep hb with ⟨hkind, hnext⟩ | ⟨hadmits, hnext⟩
      · rw [hkind, List.filter_cons_of_pos (by cases b <;> rfl)]
        exact .closed b (ih.1 hnext)
      · have hnone := (Bracket.not_outer_of_admits hadmits).1
        rw [List.filter_cons_of_neg (by simp [hnone])]
        exact ih.2 b hnext

/-- A literal stands behind a comparator. -/
theorem operator_before {front back : List TokenKind} {value : Literal}
    (h : (start source).Yields tokens c')
    (heq : tokens.map (·.kind) = front ++ .literal value :: back) :
    ∃ op, front.getLast? = some (.operator op) := by
  obtain ⟨before, t, _, c₁, _, rfl, ht, -, hbefore, hstep, -⟩ := h.cut heq
  have hmode := (literal_of_step hstep).1 ⟨value, ht⟩
  -- At the start no literal is looked for, so there is a token in front of this one.
  rcases List.eq_nil_or_concat' before with rfl | ⟨before, t', rfl⟩
  · cases hbefore
    cases hmode
  · obtain ⟨_, -, hlast⟩ := hbefore.last
    obtain ⟨op, hop⟩ := operator_of_step hlast hmode
    exact ⟨op, by simp [hop]⟩

/-- Behind a comparator stands a literal, or the tokens end. -/
theorem literal_behind {front back : List TokenKind} {op : Comparator} (h : c.Yields tokens c')
    (heq : tokens.map (·.kind) = front ++ .operator op :: back) :
    back = [] ∨ ∃ value, back.head? = some (.literal value) := by
  obtain ⟨_, t, _, _, _, -, ht, rfl, -, hstep, hafter⟩ := h.cut heq
  have hmode := mode_of_step hstep
  rw [ht] at hmode
  cases hafter with
  | nil => exact .inl rfl
  | cons hnext _ =>
    obtain ⟨value, hvalue⟩ := (literal_of_step hnext).2 hmode
    exact .inr ⟨value, by simp [hvalue]⟩

end Cursor.Yields

/-! ## Templates -/

/-- The tokens of every template, up to its end or to the first fault, stand where they may. -/
theorem disciplined_scan (r : Reader) (source : String) :
    Disciplined ((r.scan source).1.map (·.kind)) := by
  obtain ⟨c, hyields, -⟩ := yields_scan r source
  generalize (r.scan source).1 = tokens at hyields
  constructor
  case outside =>
    intro front kind back heq houter
    obtain ⟨before, t, after, c₁, c₂, rfl, rfl, -, hbefore, hstep, -⟩ := hyields.cut heq
    exact hbefore.allClosed (Cursor.mode_of_outer hstep houter)
  case texts => exact hyields.apart
  case inside =>
    intro b front between back heq hopen
    obtain ⟨_, t, _, _, _, -, ht, hafter, -, hstep, hback⟩ := hyields.cut heq
    obtain ⟨inner, outer, rfl, rfl, -⟩ := List.map_eq_append_iff.1 hafter
    obtain ⟨_, hinner, -⟩ := hback.split
    exact (hinner.inside (Cursor.bracket?_of_start hstep ht) hopen).1
  case brackets => exact hyields.alternating.1 rfl
  case literals =>
    intro front value back heq
    exact hyields.operator_before heq
  case operators =>
    intro front op back heq
    exact hyields.literal_behind heq
  case blanks =>
    rw [List.isChain_map]
    refine hyields.isChain ?_
    intro _ _ _ _ _ _ _ hstep hnext b
    exact ⟨Cursor.not_blank_of_start hstep hnext, Cursor.not_blank_of_close hstep hnext⟩

end MailMerge.Markup
