/-
The tokens of a template tile it. The scanner takes each token where the one in front of it ended,
and only behind a comparator it passes over layout first; so from the start of the template up to
where the scanner stops, every character belongs to exactly one token or to such layout.

What carries the proofs is that a place of the scanner is one of the template: the characters that
are left there stand behind as many others as its offset tells.
-/
import Mathlib.Data.List.Chain
import MailMerge.Proofs.Markup.Overlong
import MailMerge.Proofs.Number.Literals

namespace MailMerge.Markup

open MailMerge.Number

variable {source : String} {c c' next : Cursor} {t : Token} {tokens : List Token}

/-! ## Tilings -/

namespace Token

/-- The offset behind a token. -/
def stop (t : Token) : Nat :=
  t.position + t.spelling.length

/-- At its place the template holds the spelling of the token, which is not empty. -/
def Covers (t : Token) (source : String) : Prop :=
  t.spelling ≠ "" ∧ ∃ before after,
    source.toList = before ++ t.spelling.toList ++ after ∧ before.length = t.position

/-- The token ends at an offset of the template, or it is a comparator and there is only layout
between its end and that offset. -/
def Meets (t : Token) (source : String) (offset : Nat) : Prop :=
  ∃ before layout after, source.toList = before ++ layout ++ after ∧ before.length = t.stop ∧
    before.length + layout.length = offset ∧ (∀ c ∈ layout, isLayout c = true) ∧
      (layout ≠ [] → ∃ op, t.kind = .operator op)

/-- The value of a text, of a name and of a quoted literal is the spelling of its token with the
escapes resolved, without the quotes. A bare name does not start with a backtick. -/
def Resolves (t : Token) : Prop :=
  match t.kind with
  | .text value => value = String.ofList (unescape t.spelling.toList)
  | .segment name =>
    ∃ inside, (t.spelling.toList = inside ∧ inside.head? ≠ some '\x60' ∨
        t.spelling.toList = '\x60' :: inside ++ ['\x60']) ∧
      name = String.ofList (unescape inside)
  | .literal (.text value) =>
    ∃ inside, t.spelling.toList = '"' :: inside ++ ['"'] ∧ value = String.ofList (unescape inside)
  | _ => True

end Token

/-- The tokens cover the template up to the offset `stop`: the first one starts at its start, each
meets the next one, and the last one meets the offset. -/
structure Tiling (source : String) (tokens : List Token) (stop : Nat) : Prop where
  first : ∀ t ∈ tokens.head?, t.position = 0
  covers : ∀ t ∈ tokens, t.Covers source
  ascending : (tokens.map (·.position)).Pairwise (· < ·)
  meets : tokens.IsChain fun t next => t.Meets source next.position
  last : ∀ t ∈ tokens.getLast?, t.Meets source stop
  none : tokens = [] → stop = 0

namespace Cursor

/-! ## Places of the template -/

/-- A place of the template: what is left there has as many characters in front of it as the offset
tells. -/
def IsIn (c : Cursor) (source : String) : Prop :=
  ∃ front, source.toList = front ++ c.rest ∧ front.length = c.position

theorem start_isIn (source : String) : (start source).IsIn source :=
  ⟨[], rfl, rfl⟩

theorem IsIn.skipLayout (h : c.IsIn source) : c.skipLayout.IsIn source := by
  obtain ⟨front, hsource, hposition⟩ := h
  obtain ⟨layout, hrest, -, -, hskip⟩ := c.skipLayout_cases
  refine ⟨front ++ layout, ?_, ?_⟩
  · rw [hsource, hrest, List.append_assoc]
  · rw [hskip, List.length_append, hposition]

theorem IsIn.step (h : c.IsIn source) (hstep : c.step = .token t next) :
    t.Covers source ∧ next.IsIn source := by
  obtain ⟨front, hsource, hposition⟩ := h
  obtain ⟨layout, w, hrest, -, -, hscan, ht, hnext⟩ := step_eq_token_cases hstep
  have hw : t.spelling.toList = w := by rw [ht, String.toList_ofList]
  -- In front of the next place stand the old front, the layout and the token.
  have hcut : source.toList = front ++ layout ++ w ++ next.rest := by
    rw [hsource, hrest]
    simp only [List.append_assoc]
  constructor
  · constructor
    · intro hempty
      have hne := (Mode.scan_cuts hscan).1
      rw [hempty] at hw
      exact hne hw.symm
    · refine ⟨front ++ layout, next.rest, by rw [hw, hcut], ?_⟩
      rw [ht, List.length_append, hposition]
  · refine ⟨front ++ layout ++ w, hcut, ?_⟩
    rw [hnext, List.length_append, List.length_append, hposition]

theorem IsIn.yields (h : c.IsIn source) (hyields : c.Yields tokens c') : c'.IsIn source := by
  induction hyields with
  | nil => exact h
  | cons hstep _ ih => exact ih (h.step hstep).2

/-- A token meets the place at which the next one is looked for. -/
theorem IsIn.meets (h : c.IsIn source) (hstep : c.step = .token t next) :
    t.Meets source next.skipLayout.position := by
  obtain ⟨front, hsource, hposition⟩ := (h.step hstep).2
  obtain ⟨layout, hrest, hlayout, hmode, hskip⟩ := next.skipLayout_cases
  refine ⟨front, layout, next.skipLayout.rest, ?_, ?_, ?_, hlayout, ?_⟩
  · rw [hsource, List.append_assoc, ← hrest]
  · rw [hposition, (position_of_step hstep).2, Token.stop]
  · rw [hskip, hposition]
  · intro hne
    apply operator_of_step hstep
    by_contra hliteral
    exact hne (hmode hliteral)

end Cursor

/-! ## Runs tile the template -/

theorem Token.Meets.le {n : Nat} (h : t.Meets source n) : t.stop ≤ n ∧ n ≤ source.length := by
  obtain ⟨before, layout, after, hsource, hstop, hn, -, -⟩ := h
  have hlength := congrArg List.length hsource
  simp only [String.length_toList, List.length_append] at hlength
  omega

theorem Token.Covers.position_lt (h : t.Covers source) : t.position < t.stop := by
  have hpos : 0 < t.spelling.length := by
    rw [← String.length_toList, List.length_pos_iff]
    intro hnil
    exact h.1 (String.toList_eq_nil_iff.1 hnil)
  unfold Token.stop
  omega

namespace Cursor.Yields

/-- Tokens start further on than those in front of them. -/
theorem ascending (h : c.Yields tokens c') (hc : c.IsIn source) :
    (tokens.map (·.position)).Pairwise (· < ·) := by
  rw [← List.isChain_iff_pairwise, List.isChain_map]
  refine h.isChain ?_
  intro front c₁ c₂ c₃ t t' hfront hstep hnext
  -- A token covers something, and the next one does not start in front of its end.
  have hlt := ((hc.yields hfront).step hstep).1.position_lt
  have hle := ((hc.yields hfront).meets hstep).le.1
  rw [← (position_of_step hnext).1] at hle
  omega

/-- Up to the place at which one more token would be looked for, the tokens tile the template. -/
theorem tiling (h : (start source).Yields tokens c) : Tiling source tokens c.skipLayout.position := by
  have hstart := start_isIn source
  -- A template starts with plain text, so no layout is passed over at its start.
  have hzero : (start source).skipLayout.position = 0 := by
    obtain ⟨layout, -, -, hmode, hskip⟩ := (start source).skipLayout_cases
    rw [hskip, hmode nofun]
    rfl
  constructor
  case first =>
    rintro t ht
    cases h with
    | nil => cases ht
    | cons hstep _ =>
      cases ht
      rw [(position_of_step hstep).1, hzero]
  case covers =>
    intro t ht
    obtain ⟨front, c₁, c₂, hfront, hstep⟩ := h.step_of_mem ht
    exact ((hstart.yields hfront).step hstep).1
  case ascending => exact h.ascending hstart
  case meets =>
    refine h.isChain ?_
    intro front c₁ c₂ c₃ t t' hfront hstep hnext
    rw [(position_of_step hnext).1]
    exact (hstart.yields hfront).meets hstep
  case last =>
    intro t ht
    obtain ⟨front, rfl⟩ := List.getLast?_eq_some_iff.1 ht
    obtain ⟨c₁, hfront, hstep⟩ := h.last
    exact (hstart.yields hfront).meets hstep
  case none =>
    rintro rfl
    cases h
    exact hzero

end Cursor.Yields

/-! ## Values -/

section

variable {w : List Char} {value name : String}

theorem TextShape.value_spelled (h : TextShape (.text value) w) :
    value = String.ofList (unescape w) := by
  generalize hkind : TokenKind.text value = kind at h
  cases h with
  | opening b _ => cases b <;> cases hkind
  | text _ _ =>
    cases hkind
    rfl

theorem LiteralShape.value_spelled (h : LiteralShape (.literal (.text value)) w) :
    ∃ inside, w = '"' :: inside ++ ['"'] ∧ value = String.ofList (unescape inside) := by
  generalize hkind : TokenKind.literal (.text value) = kind at h
  cases h with
  | @quoted inside _ =>
    cases hkind
    exact ⟨inside, rfl, rfl⟩
  | number _ hread =>
    -- No number is read as a text.
    cases hkind
    exact (Literal.ne_text_of_readNumber hread value rfl).elim

/-- Names stand in brackets only. -/
theorem Mode.Shape.name_spelled {mode : Mode} (h : mode.Shape (.segment name) w) :
    ∃ inside, (w = inside ∧ inside.head? ≠ some '\x60' ∨ w = '\x60' :: inside ++ ['\x60']) ∧
      name = String.ofList (unescape inside) := by
  cases mode with
  | expansion => exact Bracket.Shape.name_spelled (b := .expansion) h
  | tag => exact Bracket.Shape.name_spelled (b := .tag) h
  | text =>
    generalize hkind : TokenKind.segment name = kind at h
    cases h with
    | opening b _ => cases b <;> cases hkind
    | text _ _ => cases hkind
  | literal => cases h

end

theorem Cursor.resolves_of_step (h : c.step = .token t next) : t.Resolves := by
  have hshape := shape_of_step h
  unfold Token.Resolves
  split
  · rename_i value hkind
    rw [hkind] at hshape
    rw [Mode.eq_text_of_shape hshape] at hshape
    exact TextShape.value_spelled hshape
  · rename_i name hkind
    rw [hkind] at hshape
    exact hshape.name_spelled
  · rename_i value hkind
    rw [hkind] at hshape
    rw [Mode.eq_literal_of_shape hshape] at hshape
    exact LiteralShape.value_spelled hshape
  · trivial

/-! ## Templates -/

/-- The tokens of a template tile it up to its end, or up to the place of the fault that ends them,
and the values of texts, names and quoted literals are their spellings with the escapes resolved. -/
theorem tiling_of_scan (r : Reader) (source : String) :
    ∃ stop, Tiling source (r.scan source).1 stop ∧ (∀ t ∈ (r.scan source).1, t.Resolves) ∧
      match (r.tokenize source).1 with
      | .ok tokens => tokens = (r.scan source).1 ∧ stop = source.length
      | .error (.syntaxError e) => stop = e.position
      | .error (.valueError e) =>
        ∃ count, StartsOverlong (source.toList.drop stop) count ∧ e = .tooManyDigits ⟨count⟩ := by
  obtain ⟨c, hyields, hend⟩ := yields_scan r source
  refine ⟨c.skipLayout.position, hyields.tiling, ?_, ?_⟩
  · intro t ht
    obtain ⟨_, _, _, -, hstep⟩ := hyields.step_of_mem ht
    exact Cursor.resolves_of_step hstep
  · obtain ⟨front, hsource, hposition⟩ := ((Cursor.start_isIn source).yields hyields).skipLayout
    cases hresult : (r.tokenize source).1 with
    | ok tokens =>
      rw [hresult] at hend
      obtain ⟨htokens, final, hstep⟩ := hend
      refine ⟨htokens, ?_⟩
      rw [← String.length_toList, hsource, c.rest_of_finished hstep, List.append_nil, hposition]
    | error e =>
      rw [hresult] at hend
      obtain ⟨f, final, hstep, rfl⟩ := hend
      cases f with
      | fault f => exact (Cursor.position_of_fault hstep).symm
      | value e =>
        -- The number starts where the scanner stopped.
        obtain ⟨-, count, hstarts, rfl⟩ := Cursor.step_eq_value_iff.1 ⟨final, hstep⟩
        refine ⟨count, ?_, rfl⟩
        rwa [hsource, ← hposition, List.drop_left]

end MailMerge.Markup
