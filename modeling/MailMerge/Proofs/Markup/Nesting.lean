/-
The nesting of blocks. A template whose brackets are each well formed is accepted exactly if its
tags are balanced; otherwise the fault is at the first end tag that does not name the innermost open
block, or at the end of the template where there is none.

The reading keeps the open blocks as frames, while a tag takes effect only with the token behind it.
What carries the proof is that behind every bracket, once the draft has settled, the kinds of its
frames are the blocks that are open there.
-/
import MailMerge.Proofs.Markup.Completeness

namespace MailMerge.Markup

/-! ## Balanced tags -/

/-- Plain text, or what stands in a pair of brackets. -/
inductive Part
  | text (value : String)
  | expansion (e : Expansion)
  | tag (effect : TagEffect)
  deriving DecidableEq, Repr

/-- The ways to spell a part. -/
def Part.Spelled : Part → List TokenKind → Prop
  | text value, kinds => kinds = [.text value]
  | expansion e, kinds => kinds = .openExpansion :: e.tokens ++ [.closeExpansion]
  | tag effect, kinds => effect.Spelled kinds

/-- Every tag that opens a block has its end tag, and they enclose only whole blocks. -/
inductive Balanced : List Part → Prop
  | nil : Balanced []
  | text {parts : List Part} (value : String) :
    Balanced parts → Balanced (.text value :: parts)
  | expansion {parts : List Part} (e : Expansion) :
    Balanced parts → Balanced (.expansion e :: parts)
  | block {inside parts : List Part} (tag : Tag) : Balanced inside → Balanced parts →
    Balanced (.tag (.opens tag) :: inside ++ .tag (.closes tag.kind) :: parts)

/-- The blocks that are open behind some parts, the innermost one first, when those of `stack` are
open in front of them; nothing if an end tag does not name the innermost open block. -/
def openBlocks (stack : List BlockKind) : List Part → Option (List BlockKind)
  | [] => some stack
  | .text _ :: parts | .expansion _ :: parts => openBlocks stack parts
  | .tag (.opens tag) :: parts => openBlocks (tag.kind :: stack) parts
  | .tag (.closes kind) :: parts =>
    if stack.head? = some kind then openBlocks stack.tail parts else none

theorem openBlocks_append (stack : List BlockKind) (parts more : List Part) :
    openBlocks stack (parts ++ more) =
      (openBlocks stack parts).bind fun stack => openBlocks stack more := by
  fun_induction openBlocks stack parts with
  | case1 stack => rfl
  | case2 stack value parts ih => simpa [openBlocks] using ih
  | case3 stack e parts ih => simpa [openBlocks] using ih
  | case4 stack tag parts ih => simpa [openBlocks] using ih
  | case5 stack kind parts h ih => simpa [openBlocks, h] using ih
  | case6 stack kind parts h => simp [openBlocks, h]

theorem Balanced.openBlocks {parts : List Part} (h : Balanced parts) (stack : List BlockKind) :
    openBlocks stack parts = some stack := by
  induction h generalizing stack with
  | nil => rfl
  | text value _ ih => exact ih stack
  | expansion e _ ih => exact ih stack
  | @block inside parts tag _ _ ih ih' =>
    rw [List.cons_append, Markup.openBlocks, openBlocks_append, ih]
    simpa [Markup.openBlocks] using ih' stack

/-- The end tags of the blocks of `stack` one after the other, with whole blocks around them. -/
def BalancedWithin : List BlockKind → List Part → Prop
  | [], parts => Balanced parts
  | kind :: outer, parts =>
    ∃ inside rest, parts = inside ++ .tag (.closes kind) :: rest ∧ Balanced inside ∧
      BalancedWithin outer rest

/-- Whole blocks may be put in front. -/
theorem BalancedWithin.prepend {stack : List BlockKind} {parts : List Part} (more : List Part)
    (h : BalancedWithin stack parts)
    (hmore : ∀ inside, Balanced inside → Balanced (more ++ inside)) :
    BalancedWithin stack (more ++ parts) := by
  cases stack with
  | nil => exact hmore parts h
  | cons kind outer =>
    obtain ⟨inside, rest, rfl, hinside, hrest⟩ := h
    exact ⟨more ++ inside, rest, (List.append_assoc ..).symm, hmore inside hinside, hrest⟩

theorem balancedWithin_of_openBlocks {stack : List BlockKind} {parts : List Part}
    (h : openBlocks stack parts = some []) : BalancedWithin stack parts := by
  fun_induction openBlocks stack parts with
  | case1 stack =>
    cases h
    exact .nil
  | case2 stack value parts ih => exact (ih h).prepend [_] fun _ => .text value
  | case3 stack e parts ih => exact (ih h).prepend [_] fun _ => .expansion e
  | case4 stack tag parts ih =>
    obtain ⟨inside, rest, rfl, hinside, hrest⟩ := ih h
    -- The block ends at the end tag that closes it for what follows.
    have := hrest.prepend (.tag (.opens tag) :: inside ++ [.tag (.closes tag.kind)])
      fun more hmore => by simpa using Balanced.block tag hinside hmore
    simpa using this
  | case5 stack kind parts hkind ih =>
    obtain ⟨outer, rfl⟩ : ∃ outer, stack = kind :: outer := by
      cases stack <;> simp_all
    exact ⟨[], parts, rfl, .nil, ih h⟩
  | case6 stack kind parts hkind => cases h

/-- Parts are balanced if and only if they leave no block open and close none that is not open. -/
theorem balanced_iff {parts : List Part} : Balanced parts ↔ openBlocks [] parts = some [] := by
  constructor
  · intro h
    exact h.openBlocks []
  · intro h
    exact balancedWithin_of_openBlocks h

/-- Parts that are not in order have a first end tag that does not name the innermost open block. -/
theorem exists_wrong_end {stack : List BlockKind} {parts : List Part}
    (h : openBlocks stack parts = none) :
    ∃ before kind after left, parts = before ++ .tag (.closes kind) :: after ∧
      openBlocks stack before = some left ∧ left.head? ≠ some kind := by
  fun_induction openBlocks stack parts with
  | case1 stack => cases h
  | case2 stack value parts ih =>
    obtain ⟨before, kind, after, left, rfl, hbefore, hleft⟩ := ih h
    exact ⟨.text value :: before, kind, after, left, rfl, hbefore, hleft⟩
  | case3 stack e parts ih =>
    obtain ⟨before, kind, after, left, rfl, hbefore, hleft⟩ := ih h
    exact ⟨.expansion e :: before, kind, after, left, rfl, hbefore, hleft⟩
  | case4 stack tag parts ih =>
    obtain ⟨before, kind, after, left, rfl, hbefore, hleft⟩ := ih h
    exact ⟨.tag (.opens tag) :: before, kind, after, left, rfl, hbefore, hleft⟩
  | case5 stack kind parts hkind ih =>
    obtain ⟨before, kind', after, left, rfl, hbefore, hleft⟩ := ih h
    refine ⟨.tag (.closes kind) :: before, kind', after, left, rfl, ?_, hleft⟩
    rw [openBlocks, if_pos hkind]
    exact hbefore
  | case6 stack kind parts hkind => exact ⟨[], kind, parts, stack, rfl, rfl, hkind⟩

/-! ## Drafts -/

/-- A part of a template with its tokens. -/
structure Chunk where
  part : Part
  tokens : List Token
  spelled : part.Spelled (tokens.map (·.kind))

theorem Chunk.tokens_ne_nil (chunk : Chunk) : chunk.tokens ≠ [] := by
  obtain ⟨part, tokens, hspelled⟩ := chunk
  rintro rfl
  rcases part with value | e | ⟨tag | kind⟩
  · cases hspelled
  · cases hspelled
  · obtain ⟨head, hkinds, -⟩ := hspelled
    simp at hkinds
  · cases hspelled

/-- The offset at which a part starts. -/
def Chunk.offset (chunk : Chunk) : Nat :=
  (chunk.tokens.head?.map (·.position)).getD 0

/-- The blocks that are open behind some parts, each with the offset of its tag. -/
def openTags (stack : List (BlockKind × Nat)) : List Chunk → Option (List (BlockKind × Nat))
  | [] => some stack
  | chunk :: chunks =>
    match chunk.part with
    | .text _ | .expansion _ => openTags stack chunks
    | .tag (.opens tag) => openTags ((tag.kind, chunk.offset) :: stack) chunks
    | .tag (.closes kind) =>
      if stack.head?.map (·.1) = some kind then openTags stack.tail chunks else none

theorem openTags_append (stack : List (BlockKind × Nat)) (chunks more : List Chunk) :
    openTags stack (chunks ++ more) =
      (openTags stack chunks).bind fun stack => openTags stack more := by
  fun_induction openTags stack chunks with
  | case1 stack => rfl
  | case2 stack chunk chunks value hpart ih => simpa [openTags, hpart] using ih
  | case3 stack chunk chunks e hpart ih => simpa [openTags, hpart] using ih
  | case4 stack chunk chunks tag hpart ih => simpa [openTags, hpart] using ih
  | case5 stack chunk chunks kind hpart h ih => simpa [openTags, hpart, h] using ih
  | case6 stack chunk chunks kind hpart h => simp [openTags, hpart, h]

/-- The tags only add offsets to the blocks. -/
theorem map_openTags (stack : List (BlockKind × Nat)) (chunks : List Chunk) :
    (openTags stack chunks).map (·.map (·.1)) =
      openBlocks (stack.map (·.1)) (chunks.map (·.part)) := by
  fun_induction openTags stack chunks with
  | case1 stack => rfl
  | case2 stack chunk chunks value hpart ih => simpa [openBlocks, hpart] using ih
  | case3 stack chunk chunks e hpart ih => simpa [openBlocks, hpart] using ih
  | case4 stack chunk chunks tag hpart ih => simpa [openBlocks, hpart] using ih
  | case5 stack chunk chunks kind hpart h ih =>
    simpa [openBlocks, hpart, h, List.map_tail] using ih
  | case6 stack chunk chunks kind hpart h => simp [openBlocks, hpart, h]

/-- The kinds of the blocks that frames keep open. -/
def Frame.kinds (frames : List Frame) : List BlockKind :=
  frames.map (·.tag.kind)

/-- The blocks that frames keep open, with the offsets of their tags. -/
def Frame.tags (frames : List Frame) : List (BlockKind × Nat) :=
  frames.map fun frame => (frame.tag.kind, frame.opened)

theorem Frame.map_tags (frames : List Frame) : (tags frames).map (·.1) = kinds frames := by
  rw [tags, List.map_map]
  rfl

/-- Why an end tag is refused where the blocks of `stack` are open: at its word if there are none,
and at its bracket if the innermost one is of the other kind. -/
def wrongEnd (stack : List BlockKind) (found : BlockKind) (bracket word : Token) : Refusal :=
  match stack with
  | [] => .fault .strayEndTag word.position
  | innermost :: _ => .fault (.mismatchedEndTag innermost found) bracket.position

namespace Draft

/-- One part leaves the frames that it should. -/
theorem reads_chunk (chunk : Chunk) {frames : List Frame} {stack : List (BlockKind × Nat)}
    (nodes : List Node) (h : openTags (Frame.tags frames) [chunk] = some stack) :
    ∃ frames' nodes', Frame.tags frames' = stack ∧
      (⟨frames, nodes, .content⟩ : Draft).Reads chunk.tokens ⟨frames', nodes', .content⟩ := by
  obtain ⟨part, tokens, hspelled⟩ := chunk
  rcases part with value | e | ⟨tag | kind⟩
  · cases h
    exact ⟨frames, .text value :: nodes, rfl, reads_text hspelled⟩
  · cases h
    exact ⟨frames, .expansion e :: nodes, rfl, reads_expansion hspelled⟩
  · cases h
    obtain ⟨bracket, hbracket, hreads⟩ := reads_opens hspelled
    refine ⟨⟨tag, bracket.position, nodes⟩ :: frames, [], ?_, hreads⟩
    simp [Frame.tags, Chunk.offset, Option.mem_def.1 hbracket]
  · simp only [openTags] at h
    split at h
    · rename_i hkind
      cases h
      obtain ⟨frame, outer, rfl, rfl⟩ :
          ∃ frame outer, frames = frame :: outer ∧ frame.tag.kind = kind := by
        cases frames <;> simp_all [Frame.tags]
      exact ⟨outer, _, rfl, reads_closes hspelled⟩
    · cases h

/-- Behind any parts the frames are the tags of the blocks that are open there. -/
theorem reads_tags {chunks : List Chunk} {frames : List Frame} {stack : List (BlockKind × Nat)}
    (nodes : List Node) (h : openTags (Frame.tags frames) chunks = some stack) :
    ∃ frames' nodes', Frame.tags frames' = stack ∧
      (⟨frames, nodes, .content⟩ : Draft).Reads (chunks.flatMap (·.tokens))
        ⟨frames', nodes', .content⟩ := by
  induction chunks generalizing frames nodes with
  | nil =>
    cases h
    exact ⟨frames, nodes, rfl, reads_nil⟩
  | cons chunk chunks ih =>
    rw [← List.singleton_append, openTags_append] at h
    obtain ⟨stack₁, hchunk, hchunks⟩ := Option.bind_eq_some_iff.1 h
    obtain ⟨frames₁, nodes₁, rfl, hreads⟩ := reads_chunk chunk nodes hchunk
    obtain ⟨frames', nodes', htags, hreads'⟩ := ih nodes₁ hchunks
    exact ⟨frames', nodes', htags, hreads.trans hreads'⟩

theorem reads_chunks {chunks : List Chunk} {frames : List Frame} {stack : List BlockKind}
    (nodes : List Node)
    (h : openBlocks (Frame.kinds frames) (chunks.map (·.part)) = some stack) :
    ∃ frames' nodes', Frame.kinds frames' = stack ∧
      (⟨frames, nodes, .content⟩ : Draft).Reads (chunks.flatMap (·.tokens))
        ⟨frames', nodes', .content⟩ := by
  rw [← Frame.map_tags, ← map_openTags] at h
  obtain ⟨tags, htags, rfl⟩ := Option.map_eq_some_iff.1 h
  obtain ⟨frames', nodes', rfl, hreads⟩ := reads_tags nodes htags
  exact ⟨frames', nodes', (Frame.map_tags frames').symm, hreads⟩

/-- The outcome of what follows is that of the settled draft. -/
theorem Reads.pushAll_append {d : Draft} {frames : List Frame} {nodes : List Node}
    {tokens more : List Token} (h : d.Reads tokens ⟨frames, nodes, .content⟩) (hmore : more ≠ []) :
    d.pushAll (tokens ++ more) = (⟨frames, nodes, .content⟩ : Draft).pushAll more := by
  obtain ⟨d', hpush, hsettle⟩ := h
  obtain ⟨t, more, rfl⟩ := List.exists_cons_of_ne_nil hmore
  rw [Draft.pushAll_append, hpush, pushAll_cons, ← push_of_settle hsettle rfl]
  rfl

/-- A draft that cannot settle is refused, whatever follows. -/
theorem refused_of_settle {d : Draft} {e : Refusal} (h : d.settle = .error e) (source : String)
    (more : List Token) : d.pushAll more >>= finish source = .error e := by
  cases more with
  | nil =>
    obtain ⟨frames, nodes, spot⟩ := d
    rcases spot with _ | _ | _ | ⟨opened, tag | kind⟩
    case pending.closes =>
      show finish source ⟨frames, nodes, .pending opened (.closes kind)⟩ = _
      unfold finish
      simp only [h]
      rfl
    all_goals cases h
  | cons t more =>
    rw [pushAll_cons]
    unfold push
    rw [h]
    rfl

/-- An end tag that does not name the innermost open block does not take effect. -/
theorem settle_mismatched {frame : Frame} {outer : List Frame} {nodes : List Node} {n : Nat}
    {kind : BlockKind} (h : frame.tag.kind ≠ kind) :
    (⟨frame :: outer, nodes, .pending n (.closes kind)⟩ : Draft).settle =
      .error (.fault (.mismatchedEndTag frame.tag.kind kind) n) := by
  simp [settle, h]

theorem refused_wrong_end {kind : BlockKind} {tokens : List Token} {frames : List Frame}
    (nodes : List Node) (h : tokens.map (·.kind) = kind.endSpelling)
    (hkind : (Frame.kinds frames).head? ≠ some kind) (source : String) (more : List Token) :
    ∃ bracket word rest, tokens = bracket :: word :: rest ∧ word.kind = .keyword .endWord ∧
      (⟨frames, nodes, .content⟩ : Draft).pushAll (tokens ++ more) >>= finish source =
        .error (wrongEnd (Frame.kinds frames) kind bracket word) := by
  obtain ⟨bracket, tail, rfl, hbracket, htail⟩ := List.map_eq_cons_iff.1 h
  obtain ⟨word, rest, rfl, hword, -⟩ := List.map_eq_cons_iff.1 htail
  refine ⟨bracket, word, rest, rfl, hword, ?_⟩
  cases frames with
  | nil =>
    -- The word is refused as it is pushed, so the rest of the tag is not even looked at.
    have htake : (⟨[], nodes, .content⟩ : Draft).take? bracket =
        some ⟨[], nodes, .tag bracket.position .opened⟩ := by
      simp [take?, hbracket]
    have hstray : (⟨[], nodes, .tag bracket.position .opened⟩ : Draft).push word =
        .error (.fault .strayEndTag word.position) := by
      simp [push, settle, take?, complaint, hword, bind, Except.bind, throw, throwThe,
        MonadExceptOf.throw]
    rw [List.cons_append, pushAll_cons, push_of_take? rfl htake]
    show pushAll _ (word :: _) >>= _ = _
    rw [pushAll_cons, hstray]
    rfl
  | cons frame frames =>
    -- The tag is read to its end, and refused when it should take effect.
    have heffect : (TagEffect.closes kind).Spelled ((bracket :: word :: rest).map (·.kind)) := h
    obtain ⟨_, ⟨⟩, hpush⟩ := pushAll_effect (frame :: frames) nodes heffect (by simp)
    have hmismatch : frame.tag.kind ≠ kind := fun h => hkind (by simp [Frame.kinds, h])
    rw [Draft.pushAll_append, hpush]
    exact refused_of_settle (settle_mismatched hmismatch) source more

end Draft

/-! ## Templates -/

/-- The end tag `chunk` is the first wrong one: it names `kind` where the blocks of `stack` are
open. -/
def FirstWrongEnd (chunks : List Chunk) (chunk : Chunk) (stack : List BlockKind)
    (kind : BlockKind) : Prop :=
  ∃ before after, chunks = before ++ chunk :: after ∧
    openBlocks [] (before.map (·.part)) = some stack ∧ chunk.part = .tag (.closes kind) ∧
    stack.head? ≠ some kind

/-- Tags are balanced, or an end tag is wrong, or blocks are left open. -/
theorem balanced_or (chunks : List Chunk) :
    Balanced (chunks.map (·.part)) ∨
      (∃ chunk stack kind, FirstWrongEnd chunks chunk stack kind) ∨
      ∃ stack, stack ≠ [] ∧ openBlocks [] (chunks.map (·.part)) = some stack := by
  cases hopen : openBlocks [] (chunks.map (·.part)) with
  | some stack =>
    by_cases hstack : stack = []
    · rw [hstack] at hopen
      exact .inl (balanced_iff.2 hopen)
    · exact .inr (.inr ⟨stack, hstack, rfl⟩)
  | none =>
    obtain ⟨parts, kind, parts', stack, hparts, hbefore, hkind⟩ := exists_wrong_end hopen
    obtain ⟨before, rest, rfl, rfl, hrest⟩ := List.map_eq_append_iff.1 hparts
    obtain ⟨chunk, after, rfl, hchunk, rfl⟩ := List.map_eq_cons_iff.1 hrest
    exact .inr (.inl ⟨chunk, stack, kind, before, after, rfl, hbefore, hchunk, hkind⟩)

/-- Without a wrong end tag only blocks that are left open are a fault. -/
theorem nodesOf_chunks {chunks : List Chunk} {stack : List BlockKind}
    (h : openBlocks [] (chunks.map (·.part)) = some stack) (source : String) :
    if stack = [] then ∃ nodes, nodesOf source (chunks.flatMap (·.tokens)) = .ok nodes
    else ∃ fault, nodesOf source (chunks.flatMap (·.tokens)) =
      .error (.fault fault source.length) := by
  obtain ⟨frames, nodes, rfl, d, hpush, hsettle⟩ := @Draft.reads_chunks chunks [] stack [] h
  have hfinish := Draft.finish_of_settle hsettle source
  have hnodes : nodesOf source (chunks.flatMap (·.tokens)) = d.finish source := by
    unfold nodesOf
    rw [show Draft.empty = ⟨[], [], .content⟩ from rfl, hpush]
    rfl
  rw [hnodes]
  cases frames with
  | nil => exact ⟨_, by simpa using hfinish⟩
  | cons frame frames => simpa [Frame.kinds] using hfinish

/-- The first wrong end tag decides, whatever follows it. -/
theorem nodesOf_firstWrongEnd {chunks : List Chunk} {chunk : Chunk} {stack : List BlockKind}
    {kind : BlockKind} (h : FirstWrongEnd chunks chunk stack kind) (source : String) :
    ∃ bracket word rest, chunk.tokens = bracket :: word :: rest ∧ word.kind = .keyword .endWord ∧
      nodesOf source (chunks.flatMap (·.tokens)) = .error (wrongEnd stack kind bracket word) := by
  obtain ⟨before, after, rfl, hbefore, hchunk, hkind⟩ := h
  obtain ⟨frames, nodes, rfl, hreads⟩ := @Draft.reads_chunks before [] stack [] hbefore
  have hspelled : chunk.tokens.map (·.kind) = kind.endSpelling := by
    have := chunk.spelled
    rwa [hchunk] at this
  obtain ⟨bracket, word, rest, htokens, hword, hrefused⟩ :=
    Draft.refused_wrong_end nodes hspelled hkind source (after.flatMap (·.tokens))
  refine ⟨bracket, word, rest, htokens, hword, ?_⟩
  rw [List.flatMap_append, List.flatMap_cons, ← hrefused]
  unfold nodesOf
  rw [show Draft.empty = ⟨[], [], .content⟩ from rfl, hreads.pushAll_append (by simp [htokens])]

section

variable {source : String} {chunks : List Chunk}
  (h : tokenize source = .ok (chunks.flatMap (·.tokens)))

include h

theorem parse_of_balanced (hbalanced : Balanced (chunks.map (·.part))) :
    ∃ nodes, parse source = .ok nodes := by
  obtain ⟨nodes, hnodes⟩ := nodesOf_chunks (balanced_iff.1 hbalanced) source
  exact ⟨nodes, by rw [parse_of_tokenize h, hnodes]; rfl⟩

theorem parse_of_left_open {stack : List BlockKind}
    (hopen : openBlocks [] (chunks.map (·.part)) = some stack) (hstack : stack ≠ []) :
    ∃ e, parse source = .error (.syntaxError e) ∧ e.position = source.length := by
  have hnodes := nodesOf_chunks hopen source
  rw [if_neg hstack] at hnodes
  obtain ⟨fault, hnodes⟩ := hnodes
  exact ⟨⟨fault, source.length, Text.placeOf source source.length⟩,
    by rw [parse_of_tokenize h, hnodes]; rfl, rfl⟩

theorem parse_of_firstWrongEnd {chunk : Chunk} {stack : List BlockKind} {kind : BlockKind}
    (hwrong : FirstWrongEnd chunks chunk stack kind) :
    ∃ bracket word rest, chunk.tokens = bracket :: word :: rest ∧ word.kind = .keyword .endWord ∧
      parse source = .error ((wrongEnd stack kind bracket word).report source) := by
  obtain ⟨bracket, word, rest, htokens, hword, hnodes⟩ := nodesOf_firstWrongEnd hwrong source
  exact ⟨bracket, word, rest, htokens, hword, by rw [parse_of_tokenize h, hnodes]; rfl⟩

/-- A template of well-formed parts is accepted exactly if its tags are balanced. Otherwise it is
refused at the first wrong end tag, and at its end if there is none. -/
theorem parse_nesting :
    ((∃ nodes, parse source = .ok nodes) ↔ Balanced (chunks.map (·.part))) ∧
    (∀ chunk stack kind, FirstWrongEnd chunks chunk stack kind →
      ∃ e bracket word rest, parse source = .error (.syntaxError e) ∧
        chunk.tokens = bracket :: word :: rest ∧ word.kind = .keyword .endWord ∧
        match stack with
        | [] => e.reason = "Unexpected end tag with no open block" ∧ e.position = word.position
        | innermost :: _ =>
          e.reason =
            s!"Mismatched end tag: expected 'end {innermost.word}' but found 'end {kind.word}'" ∧
          e.position = bracket.position) ∧
    (¬ Balanced (chunks.map (·.part)) →
      (¬ ∃ chunk stack kind, FirstWrongEnd chunks chunk stack kind) →
      ∃ e, parse source = .error (.syntaxError e) ∧ e.position = source.length) := by
  refine ⟨?_, ?_, ?_⟩
  · constructor
    · rintro ⟨nodes, hnodes⟩
      -- Both ways of not being balanced are refused.
      rcases balanced_or chunks with hbalanced | ⟨chunk, stack, kind, hwrong⟩ | ⟨stack, hstack, hopen⟩
      · exact hbalanced
      · obtain ⟨_, _, _, -, -, he⟩ := parse_of_firstWrongEnd h hwrong
        rw [he] at hnodes
        cases hnodes
      · obtain ⟨e, he, -⟩ := parse_of_left_open h hopen hstack
        rw [he] at hnodes
        cases hnodes
    · exact parse_of_balanced h
  · intro chunk stack kind hwrong
    obtain ⟨bracket, word, rest, htokens, hword, he⟩ := parse_of_firstWrongEnd h hwrong
    cases stack with
    | nil => exact ⟨_, bracket, word, rest, he, htokens, hword, rfl, rfl⟩
    | cons innermost outer => exact ⟨_, bracket, word, rest, he, htokens, hword, rfl, rfl⟩
  · intro hunbalanced hright
    rcases balanced_or chunks with hbalanced | hwrong | ⟨stack, hstack, hopen⟩
    · exact (hunbalanced hbalanced).elim
    · exact (hright hwrong).elim
    · exact parse_of_left_open h hopen hstack

end

/-- The end tag of a loop does not close a conditional block. -/
theorem parse_nesting_mismatched :
    ∃ e, parse "\x7b@ if a=\"\" @\x7d\x7b@end for@\x7d" = .error (.syntaxError e) ∧
      e.reason = "Mismatched end tag: expected 'end if' but found 'end for'" ∧ e.position = 13 := by
  let test : Comparison := ⟨⟨[], "a"⟩, .equal, .text ""⟩
  let opening : Chunk :=
    ⟨.tag (.opens (.conditional test)),
      [⟨.openTag, 0, "\x7b@ "⟩, ⟨.keyword .ifWord, 3, "if"⟩, ⟨.blank, 5, " "⟩,
        ⟨.segment "a", 6, "a"⟩, ⟨.operator .equal, 7, "="⟩, ⟨.literal (.text ""), 8, "\"\""⟩,
        ⟨.closeTag, 10, " @\x7d"⟩],
      ⟨_, rfl, [], .inl rfl, rfl⟩⟩
  let closing : Chunk :=
    ⟨.tag (.closes .loop),
      [⟨.openTag, 13, "\x7b@"⟩, ⟨.keyword .endWord, 15, "end"⟩, ⟨.blank, 18, " "⟩,
        ⟨.keyword .forWord, 19, "for"⟩, ⟨.closeTag, 22, "@\x7d"⟩],
      rfl⟩
  have htokens : tokenize "\x7b@ if a=\"\" @\x7d\x7b@end for@\x7d" =
      .ok ([opening, closing].flatMap (·.tokens)) :=
    tokenize_of_within 40 rfl
  have hwrong : FirstWrongEnd [opening, closing] closing [.conditional] .loop :=
    ⟨[opening], [], rfl, rfl, rfl, by decide⟩
  obtain ⟨e, bracket, word, rest, he, hclosing, -, hreason, hposition⟩ :=
    (parse_nesting htokens).2.1 closing [.conditional] .loop hwrong
  cases hclosing
  exact ⟨e, he, hreason, hposition⟩

end MailMerge.Markup
