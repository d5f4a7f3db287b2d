/-
What comes at a spot. Where the reading stands tells in which mode the scanner looks for the next
token, and what must come so that the token in front of it ends there. Every token that can be
pushed at a spot comes like that.
-/
import MailMerge.Proofs.Markup.Shape

namespace MailMerge.Markup

open MailMerge.Text MailMerge.Number

/-! ## What comes at a spot -/

/-- What ends the last token in front of a spot of a path, when names are spelled in these units. -/
def PathSpot.EndsBefore (u : Units) : PathSpot → List Char → Prop
  | start _, more | indexing _ _, more => StartsWord more
  | named _ _, more | indexed _ _, more => u.span more = ([], more)

/-- The mode in which the scanner looks for what comes at a spot of a comparison. -/
def ComparisonSpot.mode : ComparisonSpot → Mode
  | compared _ _ => .literal
  | subject _ | spaced _ | complete _ => .tag

/-- What ends the last token in front of a spot of a comparison. -/
def ComparisonSpot.EndsBefore : ComparisonSpot → List Char → Prop
  | subject spot, more => spot.EndsBefore tagUnits more
  | spaced _, more => StartsWord more
  | compared _ _, more => more.head? ≠ some '='
  | complete _, more => EndsDecimal more

namespace TagSpot

/-- The mode in which the scanner looks for what comes at a spot of a tag. -/
def mode : TagSpot → Mode
  | condition _ _ _ spot | test spot => spot.mode
  | _ => .tag

/-- What ends the last token in front of a spot of a tag. -/
def EndsBefore : TagSpot → List Char → Prop
  | opened, more | nameStart, more | otherStart, more | inStart _ _, more | whereStart _ _ _, more
  | endStart, more => StartsWord more
  | forRead, more | otherRead, more | named _ _, more | inRead _ _, more | whereRead _ _ _, more
  | ifRead, more | endRead, more | ended _, more => tagUnits.span more = ([], more)
  | table _ _ spot, more => spot.EndsBefore tagUnits more
  | condition _ _ _ spot, more | test spot, more => spot.EndsBefore more

end TagSpot

namespace Spot

/-- The mode in which the scanner looks for what comes at a spot. -/
def mode : Spot → Mode
  | content | pending _ _ => .text
  | expansion _ => .expansion
  | tag _ spot => spot.mode

/-- What ends the last token in front of a spot, if that is no text. -/
def EndsBefore : Spot → List Char → Prop
  | content, _ | pending _ _, _ => True
  | expansion spot, more => spot.EndsBefore expansionUnits more
  | tag _ spot, more => spot.EndsBefore more

end Spot

/-! ## Inside a bracket -/

namespace PathSpot

variable {u : Units} {b : Bracket} {spot spot' : PathSpot} {kind : TokenKind} {w more : List Char}

theorem endsBefore_next? (h : spot.next? kind = some spot') (hmore : spot'.EndsBefore u more) :
    kind.EndsBefore u more := by
  unfold next? at h
  split at h <;> cases h <;> first | exact hmore | trivial

theorem mode_after_next? (h : spot.next? kind = some spot') (mode : Mode) :
    mode.after kind = mode := by
  unfold next? at h
  split at h <;> cases h <;> rfl

/-- A token that can follow ends the one in front of it. -/
theorem endsBefore_of_shape (h : spot.next? kind = some spot') (hshape : b.Shape kind w) :
    spot.EndsBefore b.units (w ++ more) := by
  unfold next? at h
  split at h
  · exact (hshape.startsWord (by cases b <;> simp [Bracket.close])).append more
  · exact hshape.span_eq (by simp) (by simp) more
  · exact hshape.span_eq (by simp) (by simp) more
  · exact (hshape.startsWord (by cases b <;> simp [Bracket.close])).append more
  · exact hshape.span_eq (by simp) (by simp) more
  · cases h

theorem endsBefore_of_expansion? {e : Expansion} (h : spot.expansion? = some e)
    (hmore : u.span more = ([], more)) : spot.EndsBefore u more := by
  unfold expansion? at h
  split at h
  · exact hmore
  · cases h

theorem endsBefore_of_lookup? {l : Lookup} (h : spot.lookup? = some l)
    (hmore : u.span more = ([], more)) : spot.EndsBefore u more := by
  unfold lookup? at h
  split at h
  · exact hmore
  · exact hmore
  · cases h

theorem next?_text (spot : PathSpot) (value : String) : spot.next? (.text value) = none := by
  cases spot <;> rfl

end PathSpot

namespace ComparisonSpot

variable {spot spot' : ComparisonSpot} {kind : TokenKind} {w more : List Char}

theorem endsBefore_next? (h : spot.next? kind = some spot') (hmore : spot'.EndsBefore more) :
    kind.EndsBefore tagUnits more := by
  unfold ComparisonSpot.next? at h
  split at h
  · obtain ⟨e, -, rfl⟩ := Option.map_eq_some_iff.1 h
    exact hmore
  · obtain ⟨e, -, rfl⟩ := Option.map_eq_some_iff.1 h
    exact hmore
  · obtain ⟨spot', hspot, rfl⟩ := Option.map_eq_some_iff.1 h
    exact PathSpot.endsBefore_next? hspot hmore
  · cases h
    exact hmore
  · cases h
    exact hmore
  · cases h

theorem mode_next? (h : spot.next? kind = some spot') : spot'.mode = spot.mode.after kind := by
  unfold ComparisonSpot.next? at h
  split at h
  · obtain ⟨e, -, rfl⟩ := Option.map_eq_some_iff.1 h
    rfl
  · obtain ⟨e, -, rfl⟩ := Option.map_eq_some_iff.1 h
    rfl
  · obtain ⟨spot', hspot, rfl⟩ := Option.map_eq_some_iff.1 h
    exact (PathSpot.mode_after_next? hspot .tag).symm
  · cases h
    rfl
  · cases h
    rfl
  · cases h

/-- Also layout in front of a literal does not go on with the comparator. -/
theorem endsBefore_of_shape (h : spot.next? kind = some spot') (hshape : spot.mode.Shape kind w)
    {layout : List Char} (hlayout : ∀ c ∈ layout, isLayout c = true)
    (hmode : spot.mode ≠ .literal → layout = []) : spot.EndsBefore (layout ++ w ++ more) := by
  unfold ComparisonSpot.next? at h
  split at h
  · obtain ⟨e, he, rfl⟩ := Option.map_eq_some_iff.1 h
    rw [hmode (by rintro ⟨⟩)]
    exact PathSpot.endsBefore_of_expansion? he
      (Bracket.Shape.span_eq (b := .tag) hshape (by simp) (by simp) more)
  · obtain ⟨e, he, rfl⟩ := Option.map_eq_some_iff.1 h
    rw [hmode (by rintro ⟨⟩)]
    exact PathSpot.endsBefore_of_expansion? he
      (Bracket.Shape.span_eq (b := .tag) hshape (by simp) (by simp) more)
  · obtain ⟨spot', hspot, rfl⟩ := Option.map_eq_some_iff.1 h
    rw [hmode (by rintro ⟨⟩)]
    exact PathSpot.endsBefore_of_shape (b := .tag) hspot hshape
  · rw [hmode (by rintro ⟨⟩)]
    exact (Bracket.Shape.startsWord (b := .tag) hshape (by simp [Bracket.close])).append more
  · obtain ⟨c, rest, rfl, -, hc⟩ := LiteralShape.head hshape
    cases layout with
    | nil => simpa [EndsBefore] using hc
    | cons d layout =>
      have hd : d ≠ '=' := by
        rintro rfl
        cases hlayout '=' List.mem_cons_self
      simpa [EndsBefore] using hd
  · cases h

theorem next?_text (spot : ComparisonSpot) (value : String) : spot.next? (.text value) = none := by
  cases spot with
  | subject spot => simp [ComparisonSpot.next?, PathSpot.next?_text]
  | _ => rfl

end ComparisonSpot

namespace TagSpot

variable {spot spot' : TagSpot} {kind : TokenKind} {w more : List Char}

theorem endsBefore_next? (h : spot.next? kind = some spot') (hmore : spot'.EndsBefore more) :
    kind.EndsBefore tagUnits more := by
  unfold TagSpot.next? at h
  split at h
  case h_13 =>
    obtain ⟨lookup, -, rfl⟩ := Option.map_eq_some_iff.1 h
    exact hmore
  case h_14 =>
    obtain ⟨spot', hspot, rfl⟩ := Option.map_eq_some_iff.1 h
    exact PathSpot.endsBefore_next? hspot hmore
  case h_17 =>
    obtain ⟨spot', hspot, rfl⟩ := Option.map_eq_some_iff.1 h
    exact ComparisonSpot.endsBefore_next? hspot hmore
  case h_19 =>
    obtain ⟨spot', hspot, rfl⟩ := Option.map_eq_some_iff.1 h
    exact ComparisonSpot.endsBefore_next? hspot hmore
  case h_12 | h_23 => cases h
  all_goals
    cases h
    exact hmore

theorem mode_next? (h : spot.next? kind = some spot') : spot'.mode = spot.mode.after kind := by
  unfold TagSpot.next? at h
  split at h
  case h_13 =>
    obtain ⟨lookup, -, rfl⟩ := Option.map_eq_some_iff.1 h
    rfl
  case h_14 =>
    obtain ⟨spot', hspot, rfl⟩ := Option.map_eq_some_iff.1 h
    exact (PathSpot.mode_after_next? hspot .tag).symm
  case h_17 =>
    obtain ⟨spot', hspot, rfl⟩ := Option.map_eq_some_iff.1 h
    exact ComparisonSpot.mode_next? hspot
  case h_19 =>
    obtain ⟨spot', hspot, rfl⟩ := Option.map_eq_some_iff.1 h
    exact ComparisonSpot.mode_next? hspot
  case h_12 | h_23 => cases h
  all_goals
    cases h
    rfl

theorem endsBefore_of_shape (h : spot.next? kind = some spot') (hshape : spot.mode.Shape kind w)
    {layout : List Char} (hlayout : ∀ c ∈ layout, isLayout c = true)
    (hmode : spot.mode ≠ .literal → layout = []) : spot.EndsBefore (layout ++ w ++ more) := by
  unfold TagSpot.next? at h
  split at h
  case h_17 =>
    obtain ⟨spot', hspot, rfl⟩ := Option.map_eq_some_iff.1 h
    exact ComparisonSpot.endsBefore_of_shape hspot hshape hlayout hmode
  case h_19 =>
    obtain ⟨spot', hspot, rfl⟩ := Option.map_eq_some_iff.1 h
    exact ComparisonSpot.endsBefore_of_shape hspot hshape hlayout hmode
  case h_12 | h_23 => cases h
  all_goals
    rw [hmode (by rintro ⟨⟩)]
    replace hshape : Bracket.tag.Shape _ w := hshape
  case h_13 =>
    obtain ⟨lookup, hlookup, rfl⟩ := Option.map_eq_some_iff.1 h
    exact PathSpot.endsBefore_of_lookup? hlookup (hshape.span_eq (by simp) (by simp) more)
  case h_14 =>
    obtain ⟨spot', hspot, rfl⟩ := Option.map_eq_some_iff.1 h
    exact PathSpot.endsBefore_of_shape (b := .tag) hspot hshape
  all_goals first
    | exact hshape.span_eq (by simp) (by simp) more
    | exact (hshape.startsWord (by simp [Bracket.close])).append more

theorem endsBefore_of_effect? {effect : TagEffect} (h : spot.effect? = some effect)
    (hshape : spot.mode.Shape .closeTag w) {layout : List Char}
    (hmode : spot.mode ≠ .literal → layout = []) : spot.EndsBefore (layout ++ w ++ more) := by
  unfold effect? at h
  split at h
  case h_5 => cases h
  all_goals
    rw [hmode (by rintro ⟨⟩)]
    replace hshape : Bracket.tag.Shape .closeTag w := hshape
  · obtain ⟨lookup, hlookup, -⟩ := Option.map_eq_some_iff.1 h
    exact PathSpot.endsBefore_of_lookup? hlookup (hshape.span_eq (by simp) (by simp) more)
  · exact hshape.endsDecimal rfl more
  · exact hshape.endsDecimal rfl more
  · exact hshape.span_eq (by simp) (by simp) more

theorem next?_text (spot : TagSpot) (value : String) : spot.next? (.text value) = none := by
  cases spot with
  | table _ _ spot => simp [TagSpot.next?, PathSpot.next?_text]
  | condition _ _ _ spot => simp [TagSpot.next?, ComparisonSpot.next?_text]
  | test spot => simp [TagSpot.next?, ComparisonSpot.next?_text]
  | _ => rfl

/-- The units of names stay the same in front of a literal. -/
theorem units_mode (spot : TagSpot) : spot.mode.units = tagUnits := by
  unfold mode
  split
  case h_1 spot | h_2 spot => cases spot <;> rfl
  case h_3 => rfl

end TagSpot

namespace Spot

/-- Nothing in particular must come in plain text. -/
theorem endsBefore_of_text {spot : Spot} (h : spot.mode = .text) (more : List Char) :
    spot.EndsBefore more := by
  cases spot with
  | content | pending _ _ => trivial
  | expansion _ => cases h
  | tag _ spot =>
    have hunits := spot.units_mode
    rw [show spot.mode = .text from h] at hunits
    have := congrFun (congrFun (congrArg Units.plain hunits) '@') none
    cases this

/-- Only a comparator asks for a literal. -/
theorem eq_of_literal {spot : Spot} (h : spot.mode = .literal) :
    ∃ opened e op, spot = .tag opened (.test (.compared e op)) ∨
      ∃ other name lookup, spot = .tag opened (.condition other name lookup (.compared e op)) := by
  cases spot with
  | content | expansion _ | pending _ _ => cases h
  | tag opened spot =>
    cases spot with
    | condition other name lookup spot =>
      cases spot with
      | compared e op => exact ⟨opened, e, op, .inr ⟨other, name, lookup, rfl⟩⟩
      | _ => cases h
    | test spot =>
      cases spot with
      | compared e op => exact ⟨opened, e, op, .inl rfl⟩
      | _ => cases h
    | _ => cases h

theorem endsBefore_of_literal {spot : Spot} (h : spot.mode = .literal) {more : List Char}
    (hmore : more.head? ≠ some '=') : spot.EndsBefore more := by
  obtain ⟨opened, e, op, rfl | ⟨other, name, lookup, rfl⟩⟩ := eq_of_literal h
  · exact hmore
  · exact hmore

theorem ne_content_of_literal {spot : Spot} (h : spot.mode = .literal) : spot ≠ .content := by
  rintro rfl
  cases h

end Spot

/-! ## Drafts -/

namespace Draft

variable {d d' : Draft} {t : Token} {w more : List Char}

/-- Settling changes only a draft with a tag that waits to take effect. -/
theorem settle_cases (h : d.settle = .ok d') :
    d' = d ∨ d'.spot = .content ∧ ∃ opened effect, d.spot = .pending opened effect := by
  unfold settle at h
  split at h
  · rename_i opened tag hspot
    cases h
    exact .inr ⟨rfl, opened, _, hspot⟩
  · rename_i opened kind hspot
    split at h
    · cases h
    · split at h
      · cases h
        exact .inr ⟨rfl, opened, _, hspot⟩
      · cases h
  · cases h
    exact .inl rfl

theorem mode_settle (h : d.settle = .ok d') : d'.spot.mode = d.spot.mode := by
  rcases settle_cases h with rfl | ⟨hspot', _, _, hspot⟩
  · rfl
  · rw [hspot', hspot]
    rfl

theorem push_eq_ok_iff : d.push t = .ok d' ↔ ∃ base, d.settle = .ok base ∧ base.take? t = some d' := by
  unfold push
  cases d.settle with
  | error e => simp [bind, Except.bind]
  | ok base =>
    simp only [bind, Except.bind, Except.ok.injEq, exists_eq_left']
    cases base.take? t with
    | none => simp [throw, throwThe, MonadExceptOf.throw]
    | some d₁ => simp [pure, Except.pure]

theorem endsBefore_take? (h : d.take? t = some d') (htext : ∀ value, t.kind ≠ .text value)
    (hmore : d'.spot.EndsBefore more) : t.kind.EndsBefore d.spot.mode.units more := by
  unfold take? at h
  split at h
  · rename_i value _ hkind
    exact (htext value hkind).elim
  · rename_i _ hkind
    cases h
    rw [hkind]
    exact hmore
  · rename_i _ hkind
    cases h
    rw [hkind]
    exact hmore
  · rename_i hkind
    rw [hkind]
    trivial
  · rename_i hspot _
    obtain ⟨spot', hnext, rfl⟩ := Option.map_eq_some_iff.1 h
    rw [hspot]
    exact PathSpot.endsBefore_next? hnext hmore
  · rename_i hkind
    rw [hkind]
    trivial
  · rename_i opened spot hspot _
    split at h
    · cases h
    · obtain ⟨spot', hnext, rfl⟩ := Option.map_eq_some_iff.1 h
      have hends := TagSpot.endsBefore_next? hnext hmore
      rw [hspot]
      show t.kind.EndsBefore spot.mode.units more
      rwa [TagSpot.units_mode]
  · cases h

theorem mode_take? (h : d.take? t = some d') : d'.spot.mode = d.spot.mode.after t.kind := by
  unfold take? at h
  split at h
  case h_4 hspot hkind | h_6 hspot hkind =>
    obtain ⟨_, -, rfl⟩ := Option.map_eq_some_iff.1 h
    rw [hkind]
    rfl
  case h_5 hspot _ =>
    obtain ⟨spot', hnext, rfl⟩ := Option.map_eq_some_iff.1 h
    rw [hspot]
    exact (PathSpot.mode_after_next? hnext .expansion).symm
  case h_7 hspot _ =>
    split at h
    · cases h
    · obtain ⟨spot', hnext, rfl⟩ := Option.map_eq_some_iff.1 h
      rw [hspot]
      exact TagSpot.mode_next? hnext
  case h_8 => cases h
  all_goals
    rename_i hspot hkind
    cases h
    rw [hspot, hkind]
    rfl

theorem endsBefore_of_shape (h : d.take? t = some d') (hshape : d.spot.mode.Shape t.kind w)
    {layout : List Char} (hlayout : ∀ c ∈ layout, isLayout c = true)
    (hmode : d.spot.mode ≠ .literal → layout = []) : d.spot.EndsBefore (layout ++ w ++ more) := by
  unfold take? at h
  split at h
  case h_1 hspot _ | h_2 hspot _ | h_3 hspot _ =>
    rw [hspot]
    trivial
  case h_4 hspot hkind =>
    obtain ⟨e, he, -⟩ := Option.map_eq_some_iff.1 h
    rw [hspot, hkind] at hshape
    rw [hmode (by rw [hspot]; rintro ⟨⟩), hspot]
    exact PathSpot.endsBefore_of_expansion? he
      (Bracket.Shape.span_eq (b := .expansion) hshape (by simp) (by simp) more)
  case h_5 hspot _ =>
    obtain ⟨spot', hnext, -⟩ := Option.map_eq_some_iff.1 h
    rw [hspot] at hshape
    rw [hmode (by rw [hspot]; rintro ⟨⟩), hspot]
    exact PathSpot.endsBefore_of_shape (b := .expansion) hnext hshape
  case h_6 hspot hkind =>
    obtain ⟨effect, heffect, -⟩ := Option.map_eq_some_iff.1 h
    rw [hspot, hkind] at hshape
    rw [hspot]
    rw [hspot] at hmode
    exact TagSpot.endsBefore_of_effect? heffect hshape hmode
  case h_7 hspot _ =>
    split at h
    · cases h
    · obtain ⟨spot', hnext, -⟩ := Option.map_eq_some_iff.1 h
      rw [hspot] at hshape hmode ⊢
      exact TagSpot.endsBefore_of_shape hnext hshape hlayout hmode
  case h_8 => cases h

/-- A text can only stand between brackets. -/
theorem take?_text {value : String} (h : d.take? t = some d') (hkind : t.kind = .text value) :
    d.spot = .content ∧ d' = { d with nodes := .text value :: d.nodes } := by
  unfold take? at h
  split at h
  case h_1 hspot hkind' =>
    cases h
    rw [hkind] at hkind'
    cases hkind'
    exact ⟨hspot, rfl⟩
  case h_5 => simp [hkind, PathSpot.next?_text] at h
  case h_7 => simp [hkind, TagSpot.next?_text] at h
  case h_8 => cases h
  all_goals
    rename_i hkind'
    rw [hkind] at hkind'
    cases hkind'

theorem mode_push (h : d.push t = .ok d') : d'.spot.mode = d.spot.mode.after t.kind := by
  obtain ⟨base, hsettle, htake⟩ := push_eq_ok_iff.1 h
  rw [mode_take? htake, mode_settle hsettle]

theorem pushAll_cons_eq_ok_iff {tokens : List Token} :
    d.pushAll (t :: tokens) = .ok d' ↔ ∃ d₁, d.push t = .ok d₁ ∧ d₁.pushAll tokens = .ok d' := by
  rw [pushAll_cons]
  cases d.push t with
  | error e => simp [bind, Except.bind]
  | ok d₁ => simp [bind, Except.bind]

theorem pushAll_append_eq_ok_iff {tokens more : List Token} :
    d.pushAll (tokens ++ more) = .ok d' ↔
      ∃ d₁, d.pushAll tokens = .ok d₁ ∧ d₁.pushAll more = .ok d' := by
  rw [pushAll_append]
  cases d.pushAll tokens with
  | error e => simp [bind, Except.bind]
  | ok d₁ => simp [bind, Except.bind]

theorem pushAll_concat {d'' : Draft} {tokens : List Token} (h : d.pushAll tokens = .ok d')
    (hpush : d'.push t = .ok d'') : d.pushAll (tokens ++ [t]) = .ok d'' := by
  exact pushAll_append_eq_ok_iff.2 ⟨d', h, pushAll_cons_eq_ok_iff.2 ⟨d'', hpush, rfl⟩⟩

end Draft

end MailMerge.Markup
