/-
Whatever is read is well formed. The scanner cuts no text and no name that is empty, no literal out
of the range of its kind, and no text right behind another one, since a text goes on for as long as
it can. The nodes of a template spell its tokens, so they are in order as well.
-/
import Mathlib.Data.List.Chain
import MailMerge.Markup.WellFormed
import MailMerge.Proofs.Markup.Prefix
import MailMerge.Proofs.Markup.Soundness
import MailMerge.Proofs.Number.Literals

/-! ## Literals -/

namespace MailMerge.Number

/-- A decimal stands for a number, if for an infinite one. -/
theorem Binary64.ofSpelling_ne_nan (d : DecimalSpelling) : ofSpelling d ≠ nan := by
  have hunits : ∀ negative num den, ofUnits negative num den ≠ nan := by
    intro negative num den
    unfold ofUnits
    simp only
    split <;> nofun
  unfold ofSpelling ofDecimal
  simp only
  split
  · nofun
  · split
    · nofun
    · split <;> apply hunits

end MailMerge.Number

namespace MailMerge.Literal

open MailMerge.Number

/-- What a decimal is read as lies in the range of its kind. -/
theorem inRange_of_read {w : List Char} {d : DecimalSpelling} {value : Literal} {kind : Kind}
    (hspan : spanDecimal w = some (d, [])) (h : read (String.ofList w) kind = .ok (some value)) :
    value.InRange := by
  cases kind with
  | unsigned =>
    obtain ⟨n, hn, rfl⟩ := read_unsigned_eq_some_iff.1 h
    obtain ⟨_, _, -, -, -, hle⟩ := readUnsigned_eq_some_iff.1 hn
    exact hle
  | signed =>
    obtain ⟨z, hz, rfl⟩ := read_signed_eq_some_iff.1 h
    obtain ⟨_, _, -, -, hrange⟩ := readSigned_eq_some_iff.1 hz
    exact hrange
  | float =>
    simp only [read, readFloat, Binary64.read, String.toList_ofList, hspan] at h
    cases h
    exact Binary64.ofSpelling_ne_nan d
  | text =>
    cases h
    trivial

theorem inRange_of_readNumber {w : List Char} {d : DecimalSpelling} {value : Literal}
    (hspan : spanDecimal w = some (d, []))
    (h : readNumber (String.ofList w) = .ok (some value)) : value.InRange := by
  obtain ⟨kind, -, hread⟩ := exists_of_readFirst h
  exact inRange_of_read hspan hread

end MailMerge.Literal

namespace MailMerge.Markup

open MailMerge.Number

/-! ## Tokens -/

namespace TokenKind

/-- A token that may stand in a well-formed template. -/
def WellFormed : TokenKind → Prop
  | text value => value ≠ ""
  | segment name => name ≠ ""
  | literal value => value.InRange
  | _ => True

/-- Whether a token is plain text. -/
def isText : TokenKind → Bool
  | text _ => true
  | _ => false

theorem eq_text_of_isText {kind : TokenKind} (h : kind.isText) : ∃ value, kind = text value := by
  cases kind with
  | text value => exact ⟨value, rfl⟩
  | _ => cases h

/-- Two tokens that may stand side by side: not both are texts. -/
def Apart (kind next : TokenKind) : Prop :=
  kind.isText → ¬ next.isText

end TokenKind

/-- Escapes stand for one character each, so that something is left of a text. -/
theorem ofList_unescape_ne_empty {w : List Char} (h : w ≠ []) :
    String.ofList (unescape w) ≠ "" := by
  have hne : unescape w ≠ [] := by
    fun_cases unescape w with
    | case1 => exact (h rfl).elim
    | case2 => simp
    | case3 => simp
  intro hempty
  exact hne (by simpa using congrArg String.toList hempty)

theorem Bracket.wellFormed_word (b : Bracket) {w : List Char} (h : w ≠ []) :
    (b.word w).WellFormed := by
  cases b with
  | expansion => exact ofList_unescape_ne_empty h
  | tag =>
    show (Rule.wordOf w).WellFormed
    unfold Rule.wordOf
    split
    · trivial
    · exact ofList_unescape_ne_empty h

theorem Bracket.Shape.wellFormed {b : Bracket} {kind : TokenKind} {w : List Char}
    (h : b.Shape kind w) : kind.WellFormed := by
  cases h with
  | closing _ => cases b <;> trivial
  | quoted hne _ => exact ofList_unescape_ne_empty hne
  | word hne _ => exact b.wellFormed_word hne
  | blank _ _ | dot | atSign | operator _ _ => trivial

/-- Whatever has the shape of a token is well formed. -/
theorem Mode.Shape.wellFormed {mode : Mode} {kind : TokenKind} {w : List Char}
    (h : mode.Shape kind w) : kind.WellFormed := by
  cases mode with
  | text =>
    cases h with
    | opening b _ => cases b <;> trivial
    | text hne _ => exact ofList_unescape_ne_empty hne
  | expansion => exact Bracket.Shape.wellFormed h
  | tag => exact Bracket.Shape.wellFormed h
  | literal =>
    cases h with
    | quoted _ => trivial
    | number hspan hread => exact Literal.inRange_of_readNumber hspan hread

namespace Cursor

variable {c c' : Cursor} {tokens : List Token}

theorem wellFormed_of_step {next : Cursor} {t : Token} (h : c.step = .token t next) :
    t.kind.WellFormed := by
  exact (shape_of_step h).wellFormed

/-- Where a text ends no other one starts. -/
theorem apart_of_steps {next last : Cursor} {t t' : Token} (h : c.step = .token t next)
    (h' : next.step = .token t' last) : t.kind.Apart t'.kind := by
  intro htext htext'
  obtain ⟨_, w, -, -, -, hscan, -, hnext⟩ := step_eq_token_cases h
  obtain ⟨layout, w', hrest, -, hlayout, hscan', -⟩ := step_eq_token_cases h'
  obtain ⟨value, hkind⟩ := TokenKind.eq_text_of_isText htext
  obtain ⟨value', hkind'⟩ := TokenKind.eq_text_of_isText htext'
  have hmode : c.mode = .text := Mode.eq_text_of_shape (hkind ▸ Mode.shape_of_scan hscan)
  have hmode' : next.mode = .text := by
    rw [hnext, hkind, hmode]
    rfl
  -- The run of units ended in front of the second text, and goes on in it.
  obtain rfl := hlayout (by rw [hmode']; decide)
  rw [hmode] at hscan
  rw [hmode'] at hscan'
  have hspan := (span_of_scan_text hscan hkind).1
  have hspan' := (span_of_scan_text hscan' hkind').1
  have hnone := textUnits.span_span (w ++ next.rest)
  rw [hspan, hrest, List.nil_append, hspan'] at hnone
  exact (Mode.scan_cuts hscan').1 (congrArg Prod.fst hnone)

theorem Yields.wellFormed (h : c.Yields tokens c') : ∀ t ∈ tokens, t.kind.WellFormed := by
  intro t ht
  obtain ⟨_, _, _, -, hstep⟩ := h.step_of_mem ht
  exact wellFormed_of_step hstep

/-- No two tokens side by side are texts. -/
theorem Yields.apart (h : c.Yields tokens c') : (tokens.map (·.kind)).IsChain TokenKind.Apart := by
  rw [List.isChain_map]
  exact h.isChain fun _ _ _ _ _ _ _ hstep hnext => apart_of_steps hstep hnext

end Cursor

/-! ## Inside a bracket -/

theorem Lookup.wellFormed_of_tokens {l : Lookup} (h : ∀ kind ∈ l.tokens, kind.WellFormed) :
    l.WellFormed := by
  obtain ⟨table, index⟩ := l
  cases index with
  | none =>
    simp only [tokens, List.forall_mem_cons] at h
    exact ⟨h.1, by simp⟩
  | some index =>
    simp only [tokens, Option.map_some, Option.getD_some, List.forall_mem_cons] at h
    exact ⟨h.1, fun heq => h.2.2.1 (Option.some.inj heq)⟩

theorem Expansion.wellFormed_of_tokens {e : Expansion} (h : ∀ kind ∈ e.tokens, kind.WellFormed) :
    e.WellFormed := by
  rw [tokens, List.forall_mem_append] at h
  constructor
  · intro l hl
    apply Lookup.wellFormed_of_tokens
    intro kind hkind
    exact h.1 kind (List.mem_flatMap.2 ⟨l, hl, List.mem_append_left _ hkind⟩)
  · exact h.2 _ List.mem_cons_self

theorem segment_mem_loopTokens (other : Bool) (name : String) :
    .segment name ∈ loopTokens other name := by
  simp [loopTokens, nameTokens]

section

variable {kinds : List TokenKind} (hkinds : ∀ kind ∈ kinds, kind.WellFormed)

include hkinds

theorem Comparison.Spelled.wellFormed {c : Comparison} (h : c.Spelled kinds) : c.WellFormed := by
  obtain ⟨gap, -, rfl⟩ := h
  simp only [List.forall_mem_append, List.forall_mem_cons] at hkinds
  exact ⟨Expansion.wellFormed_of_tokens hkinds.1.1, hkinds.2.2.1⟩

theorem LoopHead.Spelled.wellFormed {head : LoopHead} (h : head.Spelled kinds) :
    head.WellFormed := by
  unfold Spelled at h
  split at h
  · rename_i hnone
    subst h
    rw [List.forall_mem_append] at hkinds
    refine ⟨hkinds.1 _ (segment_mem_loopTokens _ _), Lookup.wellFormed_of_tokens hkinds.2, ?_⟩
    rw [hnone]
    nofun
  · rename_i c hsome
    obtain ⟨condition, hcondition, rfl⟩ := h
    simp only [List.forall_mem_append] at hkinds
    refine ⟨hkinds.1.1.1 _ (segment_mem_loopTokens _ _),
      Lookup.wellFormed_of_tokens hkinds.1.1.2, ?_⟩
    rw [hsome]
    rintro _ ⟨⟩
    exact hcondition.wellFormed hkinds.2

theorem Tag.Spelled.wellFormed {t : Tag} (h : t.Spelled kinds) : t.WellFormed := by
  obtain ⟨head, rfl, hhead⟩ := h
  simp only [List.forall_mem_append] at hkinds
  cases t with
  | loop h => exact LoopHead.Spelled.wellFormed hkinds.1.2 hhead
  | conditional c => exact Comparison.Spelled.wellFormed hkinds.1.2 hhead

end

/-! ## Nodes -/

/-- Only a text starts with the token of a text, and it is its only one. -/
theorem Node.Spelled.eq_of_isText {node : Node} {kinds : List TokenKind} (h : node.Spelled kinds)
    (htext : node.isText) : ∃ value, kinds = [.text value] := by
  cases node with
  | text value =>
    rw [Node.Spelled] at h
    exact ⟨value, h⟩
  | expansion _ | block _ _ => cases htext

mutual

theorem Node.Spelled.wellFormed : ∀ {node : Node} {kinds : List TokenKind}, node.Spelled kinds →
    (∀ kind ∈ kinds, kind.WellFormed) → kinds.IsChain TokenKind.Apart → node.WellFormed
  | .text value, kinds, h, hkinds, _ => by
    rw [Node.Spelled] at h
    subst h
    rw [Node.WellFormed]
    exact hkinds _ List.mem_cons_self
  | .expansion e, kinds, h, hkinds, _ => by
    rw [Node.Spelled] at h
    subst h
    rw [Node.WellFormed]
    simp only [List.forall_mem_append, List.forall_mem_cons] at hkinds
    exact Expansion.wellFormed_of_tokens hkinds.1.2
  | .block tag body, kinds, h, hkinds, hchain => by
    rw [Node.Spelled] at h
    obtain ⟨head, inside, hhead, hinside, rfl⟩ := h
    rw [Node.WellFormed]
    simp only [List.forall_mem_append] at hkinds
    exact ⟨hhead.wellFormed hkinds.1.1,
      hinside.allWellFormed hkinds.1.2 hchain.left_of_append.right_of_append⟩

/-- Nodes are well formed if the tokens that spell them are, and no two of these are texts that
stand side by side. -/
theorem Node.AllSpelled.allWellFormed : ∀ {nodes : List Node} {kinds : List TokenKind},
    Node.AllSpelled nodes kinds → (∀ kind ∈ kinds, kind.WellFormed) →
      kinds.IsChain TokenKind.Apart → Node.AllWellFormed nodes
  | [], _, _, _, _ => by
    rw [Node.AllWellFormed]
    trivial
  | node :: nodes, kinds, h, hkinds, hchain => by
    rw [Node.AllSpelled] at h
    obtain ⟨first, rest, hfirst, hrest, rfl⟩ := h
    rw [List.forall_mem_append] at hkinds
    rw [Node.AllWellFormed]
    refine ⟨hfirst.wellFormed hkinds.1 hchain.left_of_append, ?_,
      hrest.allWellFormed hkinds.2 hchain.right_of_append⟩
    -- Nodes side by side that were texts would have their tokens side by side.
    intro htext next hnext hnextText
    obtain ⟨nodes, rfl⟩ := List.head?_eq_some_iff.1 hnext
    obtain ⟨value, rfl⟩ := hfirst.eq_of_isText htext
    rw [Node.AllSpelled] at hrest
    obtain ⟨second, others, hsecond, -, rfl⟩ := hrest
    obtain ⟨value', rfl⟩ := hsecond.eq_of_isText hnextText
    exact (List.isChain_cons_cons.1 hchain).1 rfl rfl

end

/-! ## Accepted templates -/

/-- The nodes of every template that can be read are well formed at all depths: no text is empty and
no two of them stand side by side, no name is empty, every integer lies in the range of its kind,
and no literal is `nan`. -/
theorem allWellFormed_of_parse (source : String) (nodes : List Node)
    (h : parse source = .ok nodes) : Node.AllWellFormed nodes := by
  obtain ⟨tokens, htokens, hspelled⟩ := allSpelled_of_parse h
  obtain ⟨c, final, hyields, -⟩ := yields_of_tokenize htokens
  refine hspelled.allWellFormed ?_ hyields.apart
  intro kind hkind
  obtain ⟨t, ht, rfl⟩ := List.mem_map.1 hkind
  exact hyields.wellFormed t ht

/-- Neither a lone brace nor an escaped one cuts a text in two, and a literal may be empty. -/
theorem allWellFormed_of_parse_braces :
    let source := "a\x7bb\\\x7b\x7b\x7b `\\`` \x7d\x7dc\x7b@ if x=\"\" @\x7dd\x7b@ end if @\x7d\\@"
    let nodes := [Node.text "a\x7bb\x7b", .expansion ⟨[], "\x60"⟩, .text "c",
      .block (.conditional ⟨⟨[], "x"⟩, .equal, .text ""⟩) [.text "d"], .text "@"]
    parse source = .ok nodes ∧ Node.AllWellFormed nodes := by
  intro source nodes
  have h : parse source = .ok nodes := by
    unfold source
    exact parse_of_within 40 rfl
  exact ⟨h, allWellFormed_of_parse source nodes h⟩

end MailMerge.Markup
