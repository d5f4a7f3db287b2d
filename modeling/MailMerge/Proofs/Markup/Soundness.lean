/-
What a draft has read. A draft amounts to the tokens so far: those of the nodes in front of every
open block and of its tag, those of the nodes of the innermost block, and those of the bracket in
which the reading stands. Every token that is pushed is added at the end and settling adds none, so
the nodes of a template that can be read spell its tokens.
-/
import MailMerge.Proofs.Markup.Grammar
import MailMerge.Proofs.Markup.Reading

namespace MailMerge.Markup

/-! ## Inside a bracket -/

namespace PathSpot

/-- The tokens of lookups, each with the dot behind it. -/
def pathTokens (path : List Lookup) : List TokenKind :=
  path.flatMap fun l => l.tokens ++ [.dot]

/-- The tokens that lead to a spot. -/
def tokens : PathSpot → List TokenKind
  | start path => pathTokens path
  | named path name => pathTokens path ++ [.segment name]
  | indexing path table => pathTokens path ++ [.segment table, .atSign]
  | indexed path last => pathTokens path ++ last.tokens

theorem pathTokens_append (path : List Lookup) (l : Lookup) :
    pathTokens (path ++ [l]) = pathTokens path ++ l.tokens ++ [.dot] := by
  simp [pathTokens]

theorem tokens_next? {spot spot' : PathSpot} {kind : TokenKind} (h : spot.next? kind = some spot') :
    spot'.tokens = spot.tokens ++ [kind] := by
  unfold next? at h
  split at h <;> cases h <;> simp [tokens, pathTokens_append, Lookup.tokens]

theorem tokens_expansion? {spot : PathSpot} {e : Expansion} (h : spot.expansion? = some e) :
    e.tokens = spot.tokens := by
  unfold expansion? at h
  split at h <;> cases h
  rfl

theorem tokens_lookup? {spot : PathSpot} {l : Lookup} (h : spot.lookup? = some l) :
    l.tokens = spot.tokens := by
  unfold lookup? at h
  split at h <;> cases h <;> rfl

end PathSpot

namespace ComparisonSpot

/-- The ways to spell what leads to a spot of a comparison. -/
def Spelled : ComparisonSpot → List TokenKind → Prop
  | subject spot, kinds => kinds = spot.tokens
  | spaced e, kinds => kinds = e.tokens ++ [.blank]
  | compared e op, kinds =>
    ∃ gap, (gap = [] ∨ gap = [.blank]) ∧ kinds = e.tokens ++ gap ++ [.operator op]
  | complete c, kinds => c.Spelled kinds

theorem spelled_start : (subject (.start [])).Spelled [] := rfl

theorem Spelled.next? {spot spot' : ComparisonSpot} {kind : TokenKind} {kinds : List TokenKind}
    (hs : spot.Spelled kinds) (h : spot.next? kind = some spot') :
    spot'.Spelled (kinds ++ [kind]) := by
  unfold ComparisonSpot.next? at h
  split at h
  · obtain ⟨e, he, rfl⟩ := Option.map_eq_some_iff.1 h
    simp only [Spelled] at hs ⊢
    rw [hs, PathSpot.tokens_expansion? he]
  · obtain ⟨e, he, rfl⟩ := Option.map_eq_some_iff.1 h
    simp only [Spelled] at hs ⊢
    exact ⟨[], .inl rfl, by rw [hs, PathSpot.tokens_expansion? he, List.append_nil]⟩
  · obtain ⟨spot', hspot, rfl⟩ := Option.map_eq_some_iff.1 h
    simp only [Spelled] at hs ⊢
    rw [hs, PathSpot.tokens_next? hspot]
  · cases h
    simp only [Spelled] at hs ⊢
    exact ⟨[.blank], .inr rfl, by rw [hs]⟩
  · cases h
    simp only [Spelled] at hs ⊢
    obtain ⟨gap, hgap, rfl⟩ := hs
    exact ⟨gap, hgap, by simp⟩
  · cases h

end ComparisonSpot

namespace TagSpot

/-- The ways to spell what leads to a spot of a block tag, behind its opening bracket. -/
def Spelled : TagSpot → List TokenKind → Prop
  | opened, kinds => kinds = []
  | forRead, kinds => kinds = [.keyword .forWord]
  | nameStart, kinds => kinds = [.keyword .forWord, .blank]
  | otherRead, kinds => kinds = [.keyword .forWord, .blank, .keyword .otherWord]
  | otherStart, kinds => kinds = [.keyword .forWord, .blank, .keyword .otherWord, .blank]
  | named other name, kinds => kinds = [.keyword .forWord, .blank] ++ nameTokens other name
  | inStart other name, kinds =>
    kinds = [.keyword .forWord, .blank] ++ nameTokens other name ++ [.blank]
  | inRead other name, kinds =>
    kinds = [.keyword .forWord, .blank] ++ nameTokens other name ++ [.blank, .keyword .inWord]
  | table other name spot, kinds =>
    kinds = [.keyword .forWord, .blank] ++ loopTokens other name ++ spot.tokens
  | whereStart other name lookup, kinds =>
    kinds = [.keyword .forWord, .blank] ++ loopTokens other name ++ lookup.tokens ++ [.blank]
  | whereRead other name lookup, kinds =>
    kinds = [.keyword .forWord, .blank] ++ loopTokens other name ++ lookup.tokens ++
      [.blank, .keyword .whereWord]
  | condition other name lookup spot, kinds =>
    ∃ rest, spot.Spelled rest ∧
      kinds = [.keyword .forWord, .blank] ++ loopTokens other name ++ lookup.tokens ++
        [.blank, .keyword .whereWord, .blank] ++ rest
  | ifRead, kinds => kinds = [.keyword .ifWord]
  | test spot, kinds => ∃ rest, spot.Spelled rest ∧ kinds = [.keyword .ifWord, .blank] ++ rest
  | endRead, kinds => kinds = [.keyword .endWord]
  | endStart, kinds => kinds = [.keyword .endWord, .blank]
  | ended kind, kinds => kinds = [.keyword .endWord, .blank, .keyword kind.keyword]

theorem Spelled.next? {spot spot' : TagSpot} {kind : TokenKind} {kinds : List TokenKind}
    (hs : spot.Spelled kinds) (h : spot.next? kind = some spot') :
    spot'.Spelled (kinds ++ [kind]) := by
  unfold TagSpot.next? at h
  split at h
  case h_13 other name spot =>
    obtain ⟨lookup, hlookup, rfl⟩ := Option.map_eq_some_iff.1 h
    simp only [Spelled] at hs ⊢
    rw [hs, PathSpot.tokens_lookup? hlookup]
  case h_14 other name spot _ _ =>
    obtain ⟨spot', hspot, rfl⟩ := Option.map_eq_some_iff.1 h
    simp only [Spelled] at hs ⊢
    rw [hs, PathSpot.tokens_next? hspot, List.append_assoc]
  case h_17 other name lookup spot _ =>
    obtain ⟨spot', hspot, rfl⟩ := Option.map_eq_some_iff.1 h
    simp only [Spelled] at hs ⊢
    obtain ⟨rest, hrest, rfl⟩ := hs
    exact ⟨_, hrest.next? hspot, List.append_assoc ..⟩
  case h_19 spot _ =>
    obtain ⟨spot', hspot, rfl⟩ := Option.map_eq_some_iff.1 h
    simp only [Spelled] at hs ⊢
    obtain ⟨rest, hrest, rfl⟩ := hs
    exact ⟨_, hrest.next? hspot, List.append_assoc ..⟩
  case h_16 other name lookup =>
    cases h
    simp only [Spelled] at hs ⊢
    exact ⟨[], ComparisonSpot.spelled_start, by simp [hs]⟩
  case h_18 =>
    cases h
    simp only [Spelled] at hs ⊢
    exact ⟨[], ComparisonSpot.spelled_start, by simp [hs]⟩
  case h_12 | h_23 => cases h
  all_goals
    cases h
    simp only [Spelled] at hs ⊢
    subst hs
    simp [loopTokens, nameTokens, PathSpot.tokens, PathSpot.pathTokens, BlockKind.keyword]

/-- A complete tag spells what it does. -/
theorem Spelled.effect? {spot : TagSpot} {effect : TagEffect} {kinds : List TokenKind}
    (hs : spot.Spelled kinds) (h : spot.effect? = some effect) :
    effect.Spelled (.openTag :: kinds ++ [.closeTag]) := by
  unfold TagSpot.effect? at h
  split at h
  · rename_i other name spot
    obtain ⟨lookup, hlookup, rfl⟩ := Option.map_eq_some_iff.1 h
    simp only [Spelled] at hs
    subst hs
    refine ⟨loopTokens other name ++ lookup.tokens, ?_, rfl⟩
    simp [PathSpot.tokens_lookup? hlookup, Tag.kind, BlockKind.keyword]
  · rename_i other name lookup c
    cases h
    simp only [Spelled] at hs
    obtain ⟨rest, hrest, rfl⟩ := hs
    refine ⟨_, ?_, rest, hrest, rfl⟩
    simp [Tag.kind, BlockKind.keyword]
  · rename_i c
    cases h
    simp only [Spelled] at hs
    obtain ⟨rest, hrest, rfl⟩ := hs
    refine ⟨rest, ?_, hrest⟩
    simp [Tag.kind, BlockKind.keyword]
  · rename_i kind
    cases h
    simp only [Spelled] at hs
    subst hs
    rfl
  · cases h

end TagSpot

/-! ## The whole template -/

/-- The ways to spell what leads to a spot of a template. -/
def Spot.Spelled : Spot → List TokenKind → Prop
  | content, kinds => kinds = []
  | expansion spot, kinds => kinds = .openExpansion :: spot.tokens
  | tag _ spot, kinds => ∃ inside, spot.Spelled inside ∧ kinds = .openTag :: inside
  | pending _ effect, kinds => effect.Spelled kinds

/-- The ways to spell what stands in front of the innermost open block and its tag. -/
def Frame.AllSpelled : List Frame → List TokenKind → Prop
  | [], kinds => kinds = []
  | frame :: frames, kinds =>
    ∃ outer before head, AllSpelled frames outer ∧ Node.AllSpelled frame.before.reverse before ∧
      frame.tag.Spelled head ∧ kinds = outer ++ before ++ head

namespace Draft

/-- The ways to spell what a draft amounts to. -/
def Spelled (d : Draft) (kinds : List TokenKind) : Prop :=
  ∃ outer inner last, Frame.AllSpelled d.frames outer ∧ Node.AllSpelled d.nodes.reverse inner ∧
    d.spot.Spelled last ∧ kinds = outer ++ inner ++ last

theorem spelled_empty : empty.Spelled [] :=
  ⟨[], [], [], rfl, Node.allSpelled_nil, rfl, rfl⟩

/-- Outside of brackets a settled draft stands in plain text. -/
theorem spot_of_settle {d d' : Draft} (h : d.settle = .ok d') :
    d'.spot = .content ∨ (∃ spot, d.spot = .expansion spot) ∨ ∃ opened spot, d.spot = .tag opened spot := by
  unfold Draft.settle at h
  split at h
  · cases h
    exact .inl rfl
  · split at h
    · cases h
    · split at h
      · cases h
        exact .inl rfl
      · cases h
  · cases h
    cases hspot : d.spot with
    | content => exact .inl rfl
    | expansion spot => exact .inr (.inl ⟨spot, rfl⟩)
    | tag opened spot => exact .inr (.inr ⟨opened, spot, rfl⟩)
    | pending opened effect => cases effect <;> simp_all

/-- A tag that takes effect is moved from the spot to the frames or the nodes. -/
theorem Spelled.settle {d d' : Draft} {kinds : List TokenKind} (hs : d.Spelled kinds)
    (h : d.settle = .ok d') : d'.Spelled kinds := by
  obtain ⟨frames, nodes, spot⟩ := d
  obtain ⟨outer, inner, last, houter, hinner, hlast, rfl⟩ := hs
  unfold Draft.settle at h
  split at h
  · -- The nodes so far and the tag move into a frame.
    rename_i opened tag hspot
    cases h
    simp only at hspot
    subst hspot
    exact ⟨outer ++ inner ++ last, [], [], ⟨outer, inner, last, houter, hinner, hlast, rfl⟩,
      Node.allSpelled_nil, rfl, by simp⟩
  · rename_i opened kind hspot
    simp only at hspot
    subst hspot
    split at h
    · cases h
    · rename_i frame frames' hframes
      simp only at hframes
      subst hframes
      split at h
      · -- The innermost frame becomes a node, with the nodes so far as its body.
        rename_i hkind
        cases h
        obtain ⟨outer', before, head, houter', hbefore, hhead, rfl⟩ := houter
        have hblock : (Node.block frame.tag nodes.reverse).Spelled (head ++ inner ++ last) := by
          simp only [Node.Spelled]
          exact ⟨head, inner, hhead, hinner, by rw [hkind]; exact congrArg _ hlast⟩
        exact ⟨outer', before ++ (head ++ inner ++ last), [], houter', hbefore.push hblock, rfl,
          by simp⟩
      · cases h
  · cases h
    exact ⟨outer, inner, last, houter, hinner, hlast, rfl⟩

theorem Spelled.take? {d d' : Draft} {t : Token} {kinds : List TokenKind} (hs : d.Spelled kinds)
    (h : d.take? t = some d') : d'.Spelled (kinds ++ [t.kind]) := by
  obtain ⟨frames, nodes, spot⟩ := d
  obtain ⟨outer, inner, last, houter, hinner, hlast, rfl⟩ := hs
  unfold Draft.take? at h
  split at h
  · rename_i value hspot hkind
    cases h
    simp only at hspot
    subst hspot
    have htext : (Node.text value).Spelled [t.kind] := by simp only [Node.Spelled, hkind]
    exact ⟨outer, _, [], houter, hinner.push htext, rfl, by rw [hlast]; simp⟩
  · rename_i hspot hkind
    cases h
    simp only at hspot
    subst hspot
    exact ⟨outer, inner, _, houter, hinner, rfl, by
      rw [hlast, hkind]; simp [PathSpot.tokens, PathSpot.pathTokens]⟩
  · rename_i hspot hkind
    cases h
    simp only at hspot
    subst hspot
    exact ⟨outer, inner, _, houter, hinner, ⟨[], rfl, rfl⟩, by rw [hlast, hkind]; simp⟩
  · rename_i spot hspot hkind
    obtain ⟨e, he, rfl⟩ := Option.map_eq_some_iff.1 h
    simp only at hspot
    subst hspot
    have hnode : (Node.expansion e).Spelled (last ++ [t.kind]) := by
      simp only [Node.Spelled]
      rw [hlast, hkind, PathSpot.tokens_expansion? he]
    exact ⟨outer, _, [], houter, hinner.push hnode, rfl, by simp⟩
  · rename_i spot kind _ hspot hkind
    obtain ⟨spot', hnext, rfl⟩ := Option.map_eq_some_iff.1 h
    simp only at hspot
    subst hspot
    refine ⟨outer, inner, _, houter, hinner, rfl, ?_⟩
    rw [hlast, PathSpot.tokens_next? hnext]
    simp
  · rename_i opened spot hspot hkind
    obtain ⟨effect, heffect, rfl⟩ := Option.map_eq_some_iff.1 h
    simp only at hspot
    subst hspot
    obtain ⟨inside, hinside, rfl⟩ := hlast
    exact ⟨outer, inner, _, houter, hinner, hinside.effect? heffect, by rw [hkind]; simp⟩
  · rename_i opened spot kind _ hspot hkind
    split at h
    · cases h
    · obtain ⟨spot', hnext, rfl⟩ := Option.map_eq_some_iff.1 h
      simp only at hspot
      subst hspot
      obtain ⟨inside, hinside, rfl⟩ := hlast
      exact ⟨outer, inner, _, houter, hinner, ⟨_, hinside.next? hnext, rfl⟩, by simp⟩
  · cases h

/-- A token that is pushed is added at the end. -/
theorem Spelled.push {d d' : Draft} {t : Token} {kinds : List TokenKind} (hs : d.Spelled kinds)
    (h : d.push t = .ok d') : d'.Spelled (kinds ++ [t.kind]) := by
  unfold Draft.push at h
  cases hsettle : d.settle with
  | error e => rw [hsettle] at h; cases h
  | ok settled =>
    rw [hsettle] at h
    simp only [bind, Except.bind] at h
    split at h
    · rename_i d₁ htake
      cases h
      exact (hs.settle hsettle).take? htake
    · cases h

theorem Spelled.pushAll {d d' : Draft} {tokens : List Token} {kinds : List TokenKind}
    (hs : d.Spelled kinds) (h : d.pushAll tokens = .ok d') :
    d'.Spelled (kinds ++ tokens.map (·.kind)) := by
  induction tokens generalizing d kinds with
  | nil =>
    cases h
    simpa using hs
  | cons t tokens ih =>
    rw [pushAll_cons] at h
    cases hpush : d.push t with
    | error e => rw [hpush] at h; cases h
    | ok d₁ =>
      rw [hpush] at h
      simpa using ih (hs.push hpush) h

/-- Without open blocks a draft amounts to its nodes. -/
theorem Spelled.finish {d : Draft} {source : String} {nodes : List Node} {kinds : List TokenKind}
    (hs : d.Spelled kinds) (h : d.finish source = .ok nodes) : Node.AllSpelled nodes kinds := by
  unfold Draft.finish at h
  simp only at h
  split at h
  · cases h
  · cases h
  · cases h
  · rename_i hexpansion htag _
    cases hsettle : d.settle with
    | error e => rw [hsettle] at h; cases h
    | ok settled =>
      rw [hsettle] at h
      simp only [bind, Except.bind] at h
      split at h
      · rename_i hframes
        cases h
        have hspot : settled.spot = .content := by
          rcases spot_of_settle hsettle with h | ⟨spot, h⟩ | ⟨opened, spot, h⟩
          · exact h
          · exact (hexpansion spot h).elim
          · exact (htag opened spot h).elim
        obtain ⟨outer, inner, last, houter, hinner, hlast, rfl⟩ := hs.settle hsettle
        rw [hframes] at houter
        rw [hspot] at hlast
        cases houter
        cases hlast
        simpa using hinner
      · cases h

end Draft

/-! ## Accepted templates -/

/-- The nodes of a template spell its tokens. -/
theorem allSpelled_of_parse {source : String} {nodes : List Node} (h : parse source = .ok nodes) :
    ∃ tokens, tokenize source = .ok tokens ∧ Node.AllSpelled nodes (tokens.map (·.kind)) := by
  obtain ⟨tokens, htokens, hnodes⟩ := tokenize_of_parse h
  refine ⟨tokens, htokens, ?_⟩
  unfold nodesOf at hnodes
  cases hpush : Draft.empty.pushAll tokens with
  | error e => rw [hpush] at hnodes; cases hnodes
  | ok d =>
    rw [hpush] at hnodes
    exact (Draft.spelled_empty.pushAll hpush).finish hnodes

/-- Reading a template loses, invents and reorders nothing: flattening its nodes gives back its
tokens, without the white space. -/
theorem visible_tokenize_of_parse (source : String) (nodes : List Node)
    (h : parse source = .ok nodes) :
    ∃ tokens, tokenize source = .ok tokens ∧
      visible (tokens.map (·.kind)) = Node.allTokens nodes := by
  obtain ⟨tokens, htokens, hspelled⟩ := allSpelled_of_parse h
  exact ⟨tokens, htokens, hspelled.visible⟩

/-- A loop with everything that its tag can hold. -/
theorem visible_tokenize_loop :
    let source := "a\x7b@ for other c in t@k where x.y != \"z\" @\x7d\x7b\x7b c.n \x7d\x7d\x7b@ end for @\x7d"
    let nodes := [Node.text "a", .block (.loop ⟨"c", ⟨"t", some "k"⟩,
      some ⟨⟨[⟨"x", none⟩], "y"⟩, .notEqual, .text "z"⟩, true⟩) [.expansion ⟨[⟨"c", none⟩], "n"⟩]]
    parse source = .ok nodes ∧ ∃ tokens, tokenize source = .ok tokens ∧
      visible (tokens.map (·.kind)) = Node.allTokens nodes := by
  intro source nodes
  have h : parse source = .ok nodes := by
    unfold source
    exact parse_of_within 40 rfl
  exact ⟨h, visible_tokenize_of_parse source nodes h⟩

end MailMerge.Markup
