/-
Templates compose by concatenation. What two templates give one behind the other is what each of
them gives, one behind the other, as long as no bracket arises where they meet; and what is wrong
with the second one alone is wrong with it behind the first one, at the same place of it.
-/
import MailMerge.Merge.Render
import MailMerge.Proofs.Markup.Seam

namespace MailMerge.Merge

open MailMerge.Data MailMerge.Markup

/-- Joined nodes render to the texts of both one behind the other, errors included. -/
theorem renderPieces_joinNodes (record : Record) (d : Definition) (scope : Scope)
    (nodes more : List Node) :
    renderPieces record d (Piece.ofNodes (joinNodes nodes more)) scope = (do
      let text ← renderPieces record d (Piece.ofNodes nodes) scope
      return text ++ (← renderPieces record d (Piece.ofNodes more) scope)) := by
  fun_induction joinNodes nodes more with
  | case1 more => simp only [Piece.ofNodes, renderPieces, pure_bind, String.empty_append, bind_pure]
  | case2 value value' more =>
    simp only [Piece.ofNodes, Piece.ofNode, renderPieces, renderPiece, bind_assoc, pure_bind,
      String.append_empty, String.append_assoc]
  | case3 node nodes more _ ih =>
    simp only [Piece.ofNodes, renderPieces, ih, bind_assoc, pure_bind, String.append_assoc]

/-- Behind a template that can be read another one is read to the same nodes, where two texts that
meet become one; so for all records and tables both together render to the texts of both. A syntax
error in the second template is reported at the same place of it. -/
theorem compile_append {a b : String} {nodes : List Node} (ha : parse a = .ok nodes)
    (hseam : NoBracketBetween a.toList b.toList) :
    (∀ more, parse b = .ok more → parse (a ++ b) = .ok (joinNodes nodes more)) ∧
    (∀ t t', Template.compile a = .ok t → Template.compile b = .ok t' →
      ∃ both, Template.compile (a ++ b) = .ok both ∧
        ∀ record d text text', (t.render record d).result = .ok text →
          (t'.render record d).result = .ok text' →
            (both.render record d).result = .ok (text ++ text')) ∧
    ∀ e, parse b = .error (.syntaxError e) →
      ∃ e', parse (a ++ b) = .error (.syntaxError e') ∧ e'.position = a.length + e.position := by
  obtain ⟨hnodes, herror⟩ := parse_append ha hseam
  refine ⟨hnodes, ?_, herror⟩
  intro t t' ht ht'
  unfold Template.compile at ht ht' ⊢
  rw [ha] at ht
  cases ht
  cases hb : parse b with
  | error e =>
    rw [hb] at ht'
    cases ht'
  | ok more =>
    rw [hb] at ht'
    cases ht'
    rw [hnodes more hb]
    refine ⟨_, rfl, ?_⟩
    intro record d text text' htext htext'
    unfold Template.render at htext htext' ⊢
    rw [renderPieces_joinNodes, Consulted.result_bind, htext]
    show Consulted.result (renderPieces record d (Piece.ofNodes more) .empty >>= _) = _
    rw [Consulted.result_bind, htext']
    rfl

/-- A brace that is escaped opens no bracket with the one behind it. -/
theorem compile_append_escaped_brace :
    let a := "Dear \\\x7b"
    parse (a ++ "\x7bn\x7d \x7b\x7bn\x7d\x7d") =
        .ok [.text ("Dear \x7b" ++ "\x7bn\x7d "), .expansion ⟨[], "n"⟩] ∧
      ∃ e, parse (a ++ "\x7bn\x7d \x7b\x7bn") = .error (.syntaxError e) ∧
        e.position = a.length + 7 := by
  intro a
  have ha : parse a = .ok [.text "Dear \x7b"] := by
    unfold a
    exact parse_of_within 40 rfl
  have hescaped : endsUnescaped '{' a.toList = false := by decide
  have hseam : ∀ more, NoBracketBetween a.toList more :=
    fun _ hends => absurd hends (by simp [hescaped])
  have hfirst : parse "\x7bn\x7d \x7b\x7bn\x7d\x7d" =
      .ok [.text "\x7bn\x7d ", .expansion ⟨[], "n"⟩] :=
    parse_of_within 40 rfl
  have hsecond : parse "\x7bn\x7d \x7b\x7bn" =
      .error (.syntaxError ⟨.unterminatedExpansion, 7, 1, 8⟩) :=
    parse_of_within 40 rfl
  exact ⟨(compile_append ha (hseam _)).1 _ hfirst, (compile_append ha (hseam _)).2.2 _ hsecond⟩

end MailMerge.Merge
