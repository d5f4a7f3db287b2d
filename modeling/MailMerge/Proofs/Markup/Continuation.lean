/-
Reading on behind other text. What a template is read to does not depend on where in a text it
stands, nor on the nodes in front of it: behind `n` more characters the same tokens are cut `n`
places further on, the same blocks open and close above whatever was read before, and a fault is
reported `n` places further on.
-/
import MailMerge.Proofs.Markup.Reading

namespace MailMerge.Markup

/-! ## Places -/

/-- The token `n` places further on. -/
def Token.shift (n : Nat) (t : Token) : Token :=
  { t with position := n + t.position }

namespace Cursor

variable (n : Nat)

/-- The same rest `n` places further on. -/
def shift (c : Cursor) : Cursor :=
  { c with position := n + c.position }

/-- What is found `n` places further on. -/
def Step.shift : Step → Step
  | token t next => token (t.shift n) (next.shift n)
  | finished final => finished (final.shift n)
  | fault f final => fault f (final.shift n)

theorem skipLayout_shift (c : Cursor) : (c.shift n).skipLayout = c.skipLayout.shift n := by
  unfold skipLayout
  show (if c.mode = .literal then (c.shift n).advance _ else c.shift n) = _
  split
  · simp [advance, shift, Nat.add_assoc]
  · rfl

theorem step_shift (c : Cursor) : (c.shift n).step = c.step.shift n := by
  unfold step
  rw [skipLayout_shift]
  generalize c.skipLayout = c
  obtain ⟨mode, position, rest⟩ := c
  by_cases hrest : rest = []
  · simp [shift, Step.shift, hrest]
  · have hshift : ¬ (shift n ⟨mode, position, rest⟩).rest = [] := hrest
    simp only [if_neg hrest, if_neg hshift]
    simp only [shift]
    cases mode.scan rest with
    | ok x => simp [shift, Step.shift, Token.shift, Nat.add_assoc]
    | error f => cases f <;> rfl

end Cursor

/-! ## Outcomes -/

/-- Both succeed with related results, or both fail, the second one `n` places further on. The faults
need not be equal, as some of them name a token or the place of a block. -/
inductive Agree {α : Type} (n : Nat) (r : α → α → Prop) :
    Except Refusal α → Except Refusal α → Prop
  | ok {a a' : α} : r a a' → Agree n r (.ok a) (.ok a')
  | fault (f f' : Fault) (position : Nat) :
    Agree n r (.error (.fault f position)) (.error (.fault f' (n + position)))
  | value (e : ValueFault) : Agree n r (.error (.value e)) (.error (.value e))

namespace Agree

variable {α β : Type} {n : Nat} {r : α → α → Prop} {s : β → β → Prop} {x x' : Except Refusal α}

theorem bind {f f' : α → Except Refusal β} (h : Agree n r x x')
    (hf : ∀ a a', r a a' → Agree n s (f a) (f' a')) : Agree n s (x >>= f) (x' >>= f') := by
  cases h with
  | ok h => exact hf _ _ h
  | fault f f' position => exact .fault f f' position
  | value e => exact .value e

theorem imp {r' : α → α → Prop} (h : Agree n r x x') (hr : ∀ a a', x = .ok a → r a a' → r' a a') :
    Agree n r' x x' := by
  cases h with
  | ok h => exact .ok (hr _ _ rfl h)
  | fault f f' position => exact .fault f f' position
  | value e => exact .value e

end Agree

/-! ## Drafts -/

/-- The spot `n` places further on. -/
def Spot.shift (n : Nat) : Spot → Spot
  | tag opened spot => tag (n + opened) spot
  | pending opened effect => pending (n + opened) effect
  | spot => spot

/-- The same blocks are open and the same nodes read, except that the lowest nodes are `x` below the
first ones and `y` below the second ones. -/
inductive StackedOn (n : Nat) (x y : List Node) :
    List Frame → List Node → List Frame → List Node → Prop
  | base (nodes : List Node) : StackedOn n x y [] (nodes ++ x) [] (nodes ++ y)
  | block {frames frames' : List Frame} {before before' : List Node} (tag : Tag) (opened : Nat)
    (nodes : List Node) : StackedOn n x y frames before frames' before' →
    StackedOn n x y (⟨tag, opened, before⟩ :: frames) nodes
      (⟨tag, n + opened, before'⟩ :: frames') nodes

namespace StackedOn

variable {n : Nat} {x y nodes nodes' : List Node} {frames frames' : List Frame}

theorem cons (h : StackedOn n x y frames nodes frames' nodes') (node : Node) :
    StackedOn n x y frames (node :: nodes) frames' (node :: nodes') := by
  cases h with
  | base nodes => exact .base (node :: nodes)
  | block tag opened nodes h => exact .block tag opened (node :: nodes) h

theorem eq_nil_iff (h : StackedOn n x y frames nodes frames' nodes') :
    frames = [] ↔ frames' = [] := by
  cases h with
  | base _ => exact ⟨fun _ => rfl, fun _ => rfl⟩
  | block _ _ _ _ => simp

end StackedOn

/-- The second draft is the first one above other nodes, and `n` places further on. -/
structure Draft.Above (n : Nat) (x y : List Node) (d d' : Draft) : Prop where
  stacked : StackedOn n x y d.frames d.nodes d'.frames d'.nodes
  spot : d'.spot = d.spot.shift n

/-- The second nodes are the first ones with other nodes in front. -/
def Behind (x y nodes nodes' : List Node) : Prop :=
  ∃ more, nodes = x.reverse ++ more ∧ nodes' = y.reverse ++ more

namespace Draft

variable {n : Nat} {x y : List Node} {d d' : Draft}

theorem Above.settle (h : d.Above n x y d') : Agree n (Above n x y) d.settle d'.settle := by
  obtain ⟨frames, nodes, spot⟩ := d
  obtain ⟨frames', nodes', spot'⟩ := d'
  obtain ⟨hstacked, hspot⟩ := h
  simp only at hstacked hspot
  subst hspot
  cases spot with
  | content => exact .ok ⟨hstacked, rfl⟩
  | expansion spot => exact .ok ⟨hstacked, rfl⟩
  | tag opened spot => exact .ok ⟨hstacked, rfl⟩
  | pending opened effect =>
    cases effect with
    | opens tag => exact .ok ⟨.block tag opened [] hstacked, rfl⟩
    | closes kind =>
      cases hstacked with
      | base nodes =>
        -- An end tag never closes what lies below.
        exact .fault _ _ opened
      | block tag position nodes h =>
        unfold Draft.settle
        simp only [Spot.shift]
        split
        · exact .ok ⟨h.cons _, rfl⟩
        · exact .fault _ _ opened

theorem above_map {α : Type} (found : Option α) {f f' : α → Draft}
    (h : ∀ a, (f a).Above n x y (f' a)) : Option.Rel (Above n x y) (found.map f) (found.map f') := by
  cases found with
  | none => exact .none
  | some a => exact .some (h a)

theorem Above.take? (h : d.Above n x y d') (t : Token) :
    Option.Rel (Above n x y) (d.take? t) (d'.take? (t.shift n)) := by
  obtain ⟨frames, nodes, spot⟩ := d
  obtain ⟨frames', nodes', spot'⟩ := d'
  obtain ⟨hstacked, hspot⟩ := h
  simp only at hstacked hspot
  subst hspot
  obtain ⟨kind, position, spelling⟩ := t
  cases spot with
  | content =>
    cases kind with
    | text value => exact .some ⟨hstacked.cons _, rfl⟩
    | openExpansion => exact .some ⟨hstacked, rfl⟩
    | openTag => exact .some ⟨hstacked, rfl⟩
    | _ => exact .none
  | expansion spot =>
    cases kind with
    | closeExpansion => exact above_map spot.expansion? fun e => ⟨hstacked.cons _, rfl⟩
    | _ => exact above_map (spot.next? _) fun spot => ⟨hstacked, rfl⟩
  | tag opened spot =>
    have hframes := hstacked.eq_nil_iff
    cases kind with
    | closeTag => exact above_map spot.effect? fun effect => ⟨hstacked, rfl⟩
    | _ =>
      simp only [Draft.take?, Spot.shift, Token.shift, ← hframes]
      split
      · exact .none
      · exact above_map (spot.next? _) fun spot => ⟨hstacked, rfl⟩
  | pending opened effect => exact .none

theorem Above.push (h : d.Above n x y d') (t : Token) :
    Agree n (Above n x y) (d.push t) (d'.push (t.shift n)) := by
  refine h.settle.bind ?_
  intro base base' hbase
  have htake := hbase.take? t
  generalize base.take? t = found, base'.take? (t.shift n) = found' at htake
  cases htake with
  | none => exact .fault _ _ t.position
  | some h => exact .ok h

/-- The last step of reading a template, once no tag is pending any more. -/
def close (source : String) (d : Draft) : Except Refusal (List Node) :=
  if d.frames = [] then .ok d.nodes.reverse
  else .error (.fault (unclosed source d.frames) source.length)

theorem Above.finish (h : d.Above n x y d') {source source' : String}
    (hlength : source'.length = n + source.length) :
    Agree n (Behind x y) (d.finish source) (d'.finish source') := by
  have hfault : ∀ f f' : Fault, Agree n (Behind x y) (.error (.fault f source.length))
      (.error (.fault f' source'.length)) := by
    intro f f'
    rw [hlength]
    exact .fault f f' _
  have hclose : ∀ base base' : Draft, base.Above n x y base' →
      Agree n (Behind x y) (base.close source) (base'.close source') := by
    rintro ⟨frames, nodes, spot⟩ ⟨frames', nodes', spot'⟩ ⟨hstacked, -⟩
    cases hstacked with
    | base nodes => exact .ok ⟨nodes.reverse, by simp, by simp⟩
    | block _ _ _ _ => exact hfault _ _
  have hsettled := h.settle.bind hclose
  obtain ⟨frames, nodes, spot⟩ := d
  obtain ⟨frames', nodes', spot'⟩ := d'
  obtain ⟨-, hspot⟩ := h
  simp only at hspot
  subst hspot
  rcases spot with _ | spot | ⟨opened, spot⟩ | ⟨opened, tag | kind⟩
  · exact hsettled
  · exact hfault _ _
  · exact hfault _ _
  · exact hfault _ _
  · exact hsettled

end Draft

/-! ## Templates -/

/-- Behind other text a template is read to the same nodes, or refused at the same place of it. -/
theorem Draft.Above.readNodes {n : Nat} {x y : List Node} (r : Reader) {d' : Draft}
    {source' : String} (h : r.draft.Above n x y d') (hlength : source'.length = n + r.source.length) :
    Agree n (Behind x y) r.readNodes.1 (⟨source', r.cursor.shift n, d'⟩ : Reader).readNodes.1 := by
  -- The induction is on what is left to read, which every token makes shorter.
  induction hrest : r.cursor.rest.length using Nat.strongRecOn generalizing r d' with
  | ind size ih =>
    have hshift := r.cursor.step_shift n
    cases hstep : r.cursor.step with
    | token t c =>
      rw [hstep] at hshift
      rw [Reader.readNodes_token hstep, Reader.readNodes_token hshift]
      refine (h.push t).bind ?_
      intro d₁ d₁' h₁
      have hlt := Cursor.step_length_lt hstep
      rw [hrest] at hlt
      exact ih _ hlt ⟨r.source, c, d₁⟩ h₁ hlength rfl
    | finished c =>
      rw [hstep] at hshift
      rw [Reader.readNodes_finished hstep, Reader.readNodes_finished hshift]
      exact h.finish hlength
    | fault f c =>
      rw [hstep] at hshift
      rw [Reader.readNodes_fault hstep, Reader.readNodes_fault hshift]
      cases f with
      | fault f => exact .fault f f c.position
      | value e => exact .value e

end MailMerge.Markup
