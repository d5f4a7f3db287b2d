/-
Everything that the grammar allows is read. Inside a bracket each token can follow the one before;
a tag then waits for the token behind it, and settling opens its block or closes the innermost one.
So from plain text to plain text a draft reads the nodes that its tokens spell, and together with
soundness a template is accepted exactly if its tokens spell some nodes, which are those read.
-/
import MailMerge.Proofs.Markup.Soundness

namespace MailMerge.Markup

/-! ## Inside a bracket -/

/-- Where every step of one reader is a step of another, so is every run. -/
theorem foldlM_embed {α β : Type} {f : α → TokenKind → Option α} {g : β → TokenKind → Option β}
    (embed : α → β) (h : ∀ a kind a', f a kind = some a' → g (embed a) kind = some (embed a'))
    {kinds : List TokenKind} {a a' : α} (hf : kinds.foldlM f a = some a') :
    kinds.foldlM g (embed a) = some (embed a') := by
  induction kinds generalizing a with
  | nil => cases hf; rfl
  | cons kind kinds ih =>
    rw [List.foldlM_cons] at hf ⊢
    obtain ⟨a₁, h₁, hf⟩ := Option.bind_eq_some_iff.1 hf
    rw [h a kind a₁ h₁]
    exact ih hf

theorem PathSpot.read_lookup_dot (path : List Lookup) (l : Lookup) :
    (l.tokens ++ [TokenKind.dot]).foldlM next? (start path) = some (start (path ++ [l])) := by
  obtain ⟨table, index⟩ := l
  cases index <;> rfl

theorem PathSpot.read_expansion (path : List Lookup) (e : Expansion) :
    e.tokens.foldlM next? (start path) = some (named (path ++ e.path) e.field) := by
  obtain ⟨lookups, field⟩ := e
  unfold Expansion.tokens
  induction lookups generalizing path with
  | nil => simp [next?]
  | cons l lookups ih =>
    simp only [List.flatMap_cons, List.append_assoc (l.tokens ++ [.dot])] at ih ⊢
    rw [List.foldlM_append, read_lookup_dot]
    simpa using ih (path ++ [l])

theorem PathSpot.kind_of_next? {spot spot' : PathSpot} {kind : TokenKind}
    (h : spot.next? kind = some spot') : kind ≠ .closeTag ∧ ∀ k, kind ≠ .keyword k := by
  unfold next? at h
  split at h <;> cases h <;> simp

theorem ComparisonSpot.kind_of_next? {spot spot' : ComparisonSpot} {kind : TokenKind}
    (h : spot.next? kind = some spot') : kind ≠ .closeTag ∧ ∀ k, kind ≠ .keyword k := by
  unfold next? at h
  split at h
  case h_3 =>
    obtain ⟨spot', hspot, -⟩ := Option.map_eq_some_iff.1 h
    exact PathSpot.kind_of_next? hspot
  case h_6 => cases h
  all_goals simp

/-- A path is read in a comparison as it is read alone. -/
theorem ComparisonSpot.next?_subject {spot spot' : PathSpot} {kind : TokenKind}
    (h : spot.next? kind = some spot') : (subject spot).next? kind = some (subject spot') := by
  cases kind with
  | segment name => simp only [ComparisonSpot.next?, h, Option.map_some]
  | dot => simp only [ComparisonSpot.next?, h, Option.map_some]
  | atSign => simp only [ComparisonSpot.next?, h, Option.map_some]
  | _ => cases spot <;> cases h

theorem ComparisonSpot.read {c : Comparison} {kinds : List TokenKind} (h : c.Spelled kinds) :
    kinds.foldlM next? (subject (.start [])) = some (complete c) := by
  have hsubject := foldlM_embed subject (fun _ _ _ => next?_subject)
    (PathSpot.read_expansion [] c.subject)
  obtain ⟨gap, rfl | rfl, rfl⟩ := h
  all_goals
    rw [List.append_assoc, List.foldlM_append, hsubject]
    rfl

namespace TagSpot

theorem read_loopTokens (other : Bool) (name : String) :
    ([TokenKind.keyword .forWord, .blank] ++ loopTokens other name).foldlM next? opened =
      some (table other name (.start [])) := by
  cases other <;> rfl

theorem read_lookup (other : Bool) (name : String) (l : Lookup) :
    ∃ spot, l.tokens.foldlM next? (table other name (.start [])) = some (table other name spot) ∧
      spot.lookup? = some l := by
  obtain ⟨l, index⟩ := l
  cases index
  · exact ⟨.named [] l, rfl, rfl⟩
  · exact ⟨.indexed [] _, rfl, rfl⟩

theorem read_comparison {c : Comparison} {kinds : List TokenKind} (h : c.Spelled kinds)
    {embed : ComparisonSpot → TagSpot}
    (hembed : ∀ spot kind, next? (embed spot) kind = (spot.next? kind).map embed) :
    kinds.foldlM next? (embed (.subject (.start []))) = some (embed (.complete c)) := by
  refine foldlM_embed embed (fun spot kind spot' hspot => ?_) (ComparisonSpot.read h)
  rw [hembed, hspot]
  rfl

theorem read_loop {h : LoopHead} {kinds : List TokenKind} (hs : h.Spelled kinds) :
    ∃ spot, ([TokenKind.keyword .forWord, .blank] ++ kinds).foldlM next? opened = some spot ∧
      spot.effect? = some (.opens (.loop h)) := by
  obtain ⟨name, lookup, condition, other⟩ := h
  obtain ⟨spot, hspot, hlookup⟩ := read_lookup other name lookup
  unfold LoopHead.Spelled at hs
  cases condition with
  | none =>
    simp only at hs
    subst hs
    refine ⟨table other name spot, ?_, by simp only [effect?, hlookup, Option.map_some]⟩
    rw [← List.append_assoc, List.foldlM_append, read_loopTokens]
    exact hspot
  | some c =>
    simp only at hs
    obtain ⟨rest, hrest, rfl⟩ := hs
    refine ⟨condition other name lookup (.complete c), ?_, rfl⟩
    have hwords : [TokenKind.blank, .keyword .whereWord, .blank].foldlM next?
        (table other name spot) = some (condition other name lookup (.subject (.start []))) := by
      simp [next?, hlookup]
    rw [← List.append_assoc, ← List.append_assoc, ← List.append_assoc, List.foldlM_append,
      List.foldlM_append, List.foldlM_append, read_loopTokens]
    simp only [Option.bind_eq_bind, Option.bind_some, hspot, hwords]
    exact read_comparison hrest fun _ _ => rfl

/-- What a tag does is known at its closing bracket. -/
theorem read_effect {effect : TagEffect} {kinds : List TokenKind} (h : effect.Spelled kinds) :
    ∃ word inside spot, kinds = .openTag :: .keyword word :: inside ++ [.closeTag] ∧
      (.keyword word :: inside).foldlM next? opened = some spot ∧ spot.effect? = some effect ∧
      (word = .endWord → ∃ kind, effect = .closes kind) := by
  cases effect with
  | closes kind =>
    refine ⟨.endWord, [.blank, .keyword kind.keyword], ended kind, h, ?_, rfl, fun _ => ⟨kind, rfl⟩⟩
    cases kind <;> rfl
  | opens tag =>
    obtain ⟨head, rfl, hhead⟩ := h
    cases tag with
    | loop h =>
      obtain ⟨spot, hspot, heffect⟩ := read_loop hhead
      exact ⟨.forWord, _, spot, rfl, hspot, heffect, by simp⟩
    | conditional c =>
      exact ⟨.ifWord, _, test (.complete c), rfl, read_comparison hhead fun _ _ => rfl, rfl, by simp⟩

/-- The word `end` comes first in its tag, and the closing bracket last. -/
theorem kind_of_next? {spot spot' : TagSpot} {kind : TokenKind} (h : spot.next? kind = some spot') :
    kind ≠ .closeTag ∧ (kind = .keyword .endWord → spot = opened) := by
  unfold next? at h
  split at h
  case h_14 spot _ _ =>
    obtain ⟨spot', hspot, -⟩ := Option.map_eq_some_iff.1 h
    have := PathSpot.kind_of_next? hspot
    exact ⟨this.1, fun hkind => (this.2 _ hkind).elim⟩
  case h_17 spot _ | h_19 spot _ =>
    obtain ⟨spot', hspot, -⟩ := Option.map_eq_some_iff.1 h
    have := ComparisonSpot.kind_of_next? hspot
    exact ⟨this.1, fun hkind => (this.2 _ hkind).elim⟩
  case h_23 => cases h
  all_goals simp

theorem next?_ne_opened {spot spot' : TagSpot} {kind : TokenKind}
    (h : spot.next? kind = some spot') : spot' ≠ opened := by
  rintro rfl
  unfold next? at h
  split at h <;> first | cases h | (obtain ⟨_, _, h⟩ := Option.map_eq_some_iff.1 h; cases h)

end TagSpot

/-! ## Drafts -/

namespace Draft

theorem push_of_take? {d d' : Draft} {t : Token} (hsettle : d.settle = .ok d)
    (h : d.take? t = some d') : d.push t = .ok d' := by
  unfold push
  rw [hsettle]
  simp only [bind, Except.bind, h]
  rfl

/-- Only the settled draft counts for what comes next. -/
theorem push_of_settle {d base : Draft} (h : d.settle = .ok base) (hspot : base.spot = .content)
    (t : Token) : d.push t = base.push t := by
  have hbase : base.settle = .ok base := by
    unfold settle
    rw [hspot]
  unfold push
  rw [h, hbase]

variable (frames : List Frame) (nodes : List Node)

theorem pushAll_expansion {spot spot' : PathSpot} {tokens : List Token}
    (h : (tokens.map (·.kind)).foldlM PathSpot.next? spot = some spot') :
    (⟨frames, nodes, .expansion spot⟩ : Draft).pushAll tokens =
      .ok ⟨frames, nodes, .expansion spot'⟩ := by
  induction tokens generalizing spot with
  | nil => cases h; rfl
  | cons t tokens ih =>
    rw [List.map_cons, List.foldlM_cons] at h
    obtain ⟨spot₁, h₁, h⟩ := Option.bind_eq_some_iff.1 h
    have htake : (⟨frames, nodes, .expansion spot⟩ : Draft).take? t =
        some ⟨frames, nodes, .expansion spot₁⟩ := by
      unfold take?
      split <;> simp_all [PathSpot.next?]
    rw [pushAll_cons, push_of_take? rfl htake]
    exact ih h

theorem pushAll_tag (opened : Nat) {spot spot' : TagSpot} {tokens : List Token}
    (hend : frames = [] → spot = .opened →
      ∀ t ∈ tokens.head?, t.kind ≠ .keyword .endWord)
    (h : (tokens.map (·.kind)).foldlM TagSpot.next? spot = some spot') :
    (⟨frames, nodes, .tag opened spot⟩ : Draft).pushAll tokens =
      .ok ⟨frames, nodes, .tag opened spot'⟩ := by
  induction tokens generalizing spot with
  | nil => cases h; rfl
  | cons t tokens ih =>
    rw [List.map_cons, List.foldlM_cons] at h
    obtain ⟨spot₁, h₁, h⟩ := Option.bind_eq_some_iff.1 h
    obtain ⟨hclose, hopened⟩ := TagSpot.kind_of_next? h₁
    have hstray : ¬ (t.kind = .keyword .endWord ∧ frames = []) := fun ⟨hkind, hframes⟩ =>
      hend hframes (hopened hkind) t rfl hkind
    have htake : (⟨frames, nodes, .tag opened spot⟩ : Draft).take? t =
        some ⟨frames, nodes, .tag opened spot₁⟩ := by
      unfold take?
      split <;> simp_all
    rw [pushAll_cons, push_of_take? rfl htake]
    exact ih (fun _ hspot => (TagSpot.next?_ne_opened h₁ hspot).elim) h

/-- A complete tag is pending, unless it is an end tag where no block is open. -/
theorem pushAll_effect {effect : TagEffect} {tokens : List Token}
    (h : effect.Spelled (tokens.map (·.kind)))
    (hopen : ∀ kind, effect = .closes kind → frames ≠ []) :
    ∃ bracket ∈ tokens.head?, (⟨frames, nodes, .content⟩ : Draft).pushAll tokens =
      .ok ⟨frames, nodes, .pending bracket.position effect⟩ := by
  obtain ⟨word, inside, spot, hkinds, hread, heffect, hend⟩ := TagSpot.read_effect h
  obtain ⟨front, last, rfl, hfront, hlast⟩ := List.map_eq_append_iff.1 hkinds
  obtain ⟨bracket, middle, rfl, hbracket, hmiddle⟩ := List.map_eq_cons_iff.1 hfront
  obtain ⟨close, rfl, hclose⟩ := List.map_eq_singleton_iff.1 hlast
  refine ⟨bracket, rfl, ?_⟩
  have htake : (⟨frames, nodes, .content⟩ : Draft).take? bracket =
      some ⟨frames, nodes, .tag bracket.position .opened⟩ := by
    simp [take?, hbracket]
  have hword : frames = [] → TagSpot.opened = .opened →
      ∀ t ∈ middle.head?, t.kind ≠ .keyword .endWord := by
    intro hframes _ t ht hkind
    have hhead := congrArg List.head? hmiddle
    rw [List.head?_map, ht, Option.map_some, List.head?_cons, hkind] at hhead
    cases hhead
    obtain ⟨kind, rfl⟩ := hend rfl
    exact hopen kind rfl hframes
  -- The word `end` is refused only where no block is open, and there this is no end tag.
  have hmid := pushAll_tag frames nodes bracket.position hword (by rwa [hmiddle])
  have htake' : (⟨frames, nodes, .tag bracket.position spot⟩ : Draft).take? close =
      some ⟨frames, nodes, .pending bracket.position effect⟩ := by
    simp [take?, hclose, heffect]
  rw [pushAll_append, pushAll_cons, push_of_take? rfl htake]
  show pushAll _ middle >>= _ = _
  rw [hmid]
  show pushAll _ [close] = _
  rw [pushAll_cons, push_of_take? rfl htake']
  rfl

/-! ## From plain text to plain text -/

/-- The draft reads tokens and amounts to `base` when it settles. -/
def Reads (d : Draft) (tokens : List Token) (base : Draft) : Prop :=
  ∃ d', d.pushAll tokens = .ok d' ∧ d'.settle = .ok base

variable {frames nodes}

theorem reads_nil : (⟨frames, nodes, .content⟩ : Draft).Reads [] ⟨frames, nodes, .content⟩ :=
  ⟨_, rfl, rfl⟩

theorem Reads.trans {d base : Draft} {tokens more : List Token}
    (h : d.Reads tokens ⟨frames, nodes, .content⟩)
    (hmore : (⟨frames, nodes, .content⟩ : Draft).Reads more base) : d.Reads (tokens ++ more) base := by
  obtain ⟨d', hpush, hsettle⟩ := h
  obtain ⟨d'', hpush', hsettle'⟩ := hmore
  unfold Reads
  rw [pushAll_append, hpush]
  cases more with
  | nil =>
    cases hpush'
    cases hsettle'
    exact ⟨d', rfl, hsettle⟩
  | cons t more =>
    refine ⟨d'', ?_, hsettle'⟩
    show d'.pushAll (t :: more) = _
    rw [pushAll_cons, push_of_settle hsettle rfl, ← pushAll_cons]
    exact hpush'

theorem pushAll_text {value : String} {tokens : List Token}
    (h : tokens.map (·.kind) = [.text value]) :
    (⟨frames, nodes, .content⟩ : Draft).pushAll tokens =
      .ok ⟨frames, .text value :: nodes, .content⟩ := by
  obtain ⟨t, rfl, ht⟩ := List.map_eq_singleton_iff.1 h
  have htake : (⟨frames, nodes, .content⟩ : Draft).take? t =
      some ⟨frames, .text value :: nodes, .content⟩ := by
    simp [take?, ht]
  rw [pushAll_cons, push_of_take? rfl htake]
  rfl

theorem reads_text {value : String} {tokens : List Token}
    (h : tokens.map (·.kind) = [.text value]) :
    (⟨frames, nodes, .content⟩ : Draft).Reads tokens ⟨frames, .text value :: nodes, .content⟩ :=
  ⟨_, pushAll_text h, rfl⟩

theorem pushAll_brackets {e : Expansion} {tokens : List Token}
    (h : tokens.map (·.kind) = .openExpansion :: e.tokens ++ [.closeExpansion]) :
    (⟨frames, nodes, .content⟩ : Draft).pushAll tokens =
      .ok ⟨frames, .expansion e :: nodes, .content⟩ := by
  obtain ⟨front, last, rfl, hfront, hlast⟩ := List.map_eq_append_iff.1 h
  obtain ⟨bracket, middle, rfl, hbracket, hmiddle⟩ := List.map_eq_cons_iff.1 hfront
  obtain ⟨close, rfl, hclose⟩ := List.map_eq_singleton_iff.1 hlast
  have htake : (⟨frames, nodes, .content⟩ : Draft).take? bracket =
      some ⟨frames, nodes, .expansion (.start [])⟩ := by
    simp [take?, hbracket]
  have hmid := pushAll_expansion frames nodes (hmiddle ▸ PathSpot.read_expansion [] e)
  have htake' : (⟨frames, nodes, .expansion (.named ([] ++ e.path) e.field)⟩ : Draft).take? close =
      some ⟨frames, .expansion e :: nodes, .content⟩ := by
    simp [take?, hclose, PathSpot.expansion?]
  rw [pushAll_append, pushAll_cons, push_of_take? rfl htake]
  show pushAll _ middle >>= _ = _
  rw [hmid]
  show pushAll _ [close] = _
  rw [pushAll_cons, push_of_take? rfl htake']
  rfl

theorem reads_expansion {e : Expansion} {tokens : List Token}
    (h : tokens.map (·.kind) = .openExpansion :: e.tokens ++ [.closeExpansion]) :
    (⟨frames, nodes, .content⟩ : Draft).Reads tokens ⟨frames, .expansion e :: nodes, .content⟩ :=
  ⟨_, pushAll_brackets h, rfl⟩

/-- The tag of a block moves what was read in front of it to a frame, which knows where it starts. -/
theorem reads_opens {tag : Tag} {tokens : List Token} (h : tag.Spelled (tokens.map (·.kind))) :
    ∃ bracket ∈ tokens.head?, (⟨frames, nodes, .content⟩ : Draft).Reads tokens
      ⟨⟨tag, bracket.position, nodes⟩ :: frames, [], .content⟩ := by
  have heffect : (TagEffect.opens tag).Spelled (tokens.map (·.kind)) := h
  obtain ⟨bracket, hbracket, hpush⟩ := pushAll_effect frames nodes heffect (by simp)
  exact ⟨bracket, hbracket, _, hpush, rfl⟩

/-- The end tag of the innermost block makes a node of it. -/
theorem reads_closes {frame : Frame} {tokens : List Token}
    (h : tokens.map (·.kind) = frame.tag.kind.endSpelling) :
    (⟨frame :: frames, nodes, .content⟩ : Draft).Reads tokens
      ⟨frames, .block frame.tag nodes.reverse :: frame.before, .content⟩ := by
  have heffect : (TagEffect.closes frame.tag.kind).Spelled (tokens.map (·.kind)) := h
  obtain ⟨bracket, -, hpush⟩ := pushAll_effect (frame :: frames) nodes heffect (by simp)
  exact ⟨_, hpush, by simp [settle]⟩

end Draft

/-! ## Nodes -/

mutual

theorem Node.Spelled.reads : ∀ {node : Node} {tokens : List Token},
    node.Spelled (tokens.map (·.kind)) → ∀ (frames : List Frame) (before : List Node),
      (⟨frames, before, .content⟩ : Draft).Reads tokens ⟨frames, node :: before, .content⟩
  | .text value, tokens, h, frames, before => by
    rw [Node.Spelled] at h
    exact Draft.reads_text h
  | .expansion e, tokens, h, frames, before => by
    rw [Node.Spelled] at h
    exact Draft.reads_expansion h
  | .block tag body, tokens, h, frames, before => by
    rw [Node.Spelled] at h
    obtain ⟨head, inside, hhead, hinside, hkinds⟩ := h
    obtain ⟨front, last, rfl, hfront, hlast⟩ := List.map_eq_append_iff.1 hkinds
    obtain ⟨first, middle, rfl, rfl, rfl⟩ := List.map_eq_append_iff.1 hfront
    obtain ⟨bracket, -, hopens⟩ := @Draft.reads_opens frames before tag first hhead
    generalize bracket.position = opened at hopens
    have hbody : (⟨⟨tag, opened, before⟩ :: frames, [], .content⟩ : Draft).Reads middle
        ⟨⟨tag, opened, before⟩ :: frames, body.reverse, .content⟩ := by
      simpa using hinside.reads (⟨tag, opened, before⟩ :: frames) []
    have hcloses : (⟨⟨tag, opened, before⟩ :: frames, body.reverse, .content⟩ : Draft).Reads last
        ⟨frames, .block tag body :: before, .content⟩ := by
      simpa using @Draft.reads_closes frames body.reverse ⟨tag, opened, before⟩ last hlast
    exact (hopens.trans hbody).trans hcloses

/-- Tokens that spell nodes are read as those nodes. -/
theorem Node.AllSpelled.reads : ∀ {nodes : List Node} {tokens : List Token},
    Node.AllSpelled nodes (tokens.map (·.kind)) → ∀ (frames : List Frame) (before : List Node),
      (⟨frames, before, .content⟩ : Draft).Reads tokens
        ⟨frames, nodes.reverse ++ before, .content⟩
  | [], tokens, h, frames, before => by
    rw [Node.AllSpelled, List.map_eq_nil_iff] at h
    subst h
    exact Draft.reads_nil
  | node :: nodes, tokens, h, frames, before => by
    rw [Node.AllSpelled] at h
    obtain ⟨first, rest, hfirst, hrest, hkinds⟩ := h
    obtain ⟨tokens₁, tokens₂, rfl, rfl, rfl⟩ := List.map_eq_append_iff.1 hkinds
    rw [List.reverse_cons, List.append_assoc, List.singleton_append]
    exact (hfirst.reads frames before).trans (hrest.reads frames (node :: before))

end

/-! ## Accepted templates -/

/-- At the end only blocks that are open are a fault. -/
theorem Draft.finish_of_settle {d : Draft} {frames : List Frame} {nodes : List Node}
    (h : d.settle = .ok ⟨frames, nodes, .content⟩) (source : String) :
    if frames = [] then d.finish source = .ok nodes.reverse
    else ∃ fault, d.finish source = .error (.fault fault source.length) := by
  obtain ⟨frames', nodes', spot⟩ := d
  have hsettled : (do
      let d ← (⟨frames', nodes', spot⟩ : Draft).settle
      if d.frames = [] then return d.nodes.reverse
      else .error (.fault (unclosed source d.frames) source.length)) =
        if frames = [] then Except.ok nodes.reverse
        else .error (.fault (unclosed source frames) source.length) := by
    rw [h]
    rfl
  rcases spot with _ | spot | ⟨opened, spot⟩ | ⟨opened, tag | kind⟩
  case expansion | tag => cases h
  case pending.opens =>
    cases h
    exact ⟨_, rfl⟩
  all_goals
    unfold finish
    simp only [hsettled]
    split
    · rfl
    · exact ⟨_, rfl⟩

/-- A template whose tokens spell nodes is read as those nodes. -/
theorem parse_of_allSpelled {source : String} {tokens : List Token} {nodes : List Node}
    (h : tokenize source = .ok tokens) (hs : Node.AllSpelled nodes (tokens.map (·.kind))) :
    parse source = .ok nodes := by
  obtain ⟨d, hpush, hsettle⟩ := hs.reads [] []
  have hnodes : nodesOf source tokens = .ok nodes := by
    unfold nodesOf
    rw [show Draft.empty = ⟨[], [], .content⟩ from rfl, hpush]
    show d.finish source = _
    simpa using Draft.finish_of_settle hsettle source
  rw [parse_of_tokenize h, hnodes]
  rfl

/-- A template is read as some nodes if and only if they spell its tokens. -/
theorem parse_eq_ok_iff {source : String} {nodes : List Node} :
    parse source = .ok nodes ↔
      ∃ tokens, tokenize source = .ok tokens ∧ Node.AllSpelled nodes (tokens.map (·.kind)) := by
  constructor
  · exact allSpelled_of_parse
  · rintro ⟨tokens, htokens, hspelled⟩
    exact parse_of_allSpelled htokens hspelled

end MailMerge.Markup
