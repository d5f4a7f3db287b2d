/-
Whole parts and one that is not finished. The tokens of a draft are those of the parts behind which
its blocks are open, and those of the bracket in which the reading stands; a tag belongs to the
latter until it takes effect.
-/
import MailMerge.Proofs.Markup.Nesting
import MailMerge.Proofs.Markup.Spots

namespace MailMerge.Markup

/-- Where the block tag was opened in which the reading stands. -/
def Spot.opened? : Spot → Option Nat
  | tag opened _ | pending opened _ => some opened
  | content | expansion _ => none

/-- The tokens are those of some parts, which leave the blocks of the draft open, and those of the
bracket that leads to its spot. -/
structure Draft.Divides (d : Draft) (chunks : List Chunk) (tail : List Token) : Prop where
  blocks : openBlocks [] (chunks.map (·.part)) = some (Frame.kinds d.frames)
  spelled : d.spot.Spelled (tail.map (·.kind))
  opened : ∀ opened ∈ d.spot.opened?, ∃ bracket ∈ tail.head?, bracket.position = opened

namespace Draft

variable {d d' : Draft} {chunks : List Chunk} {tail : List Token} {t : Token}

/-- The first token of a bracket stays the first one. -/
theorem opened_concat {opened? : Option Nat}
    (h : ∀ opened ∈ opened?, ∃ bracket ∈ tail.head?, bracket.position = opened) (t : Token) :
    ∀ opened ∈ opened?, ∃ bracket ∈ (tail ++ [t]).head?, bracket.position = opened := by
  intro opened hopened
  obtain ⟨bracket, hbracket, hposition⟩ := h opened hopened
  exact ⟨bracket, by simp [Option.mem_def.1 hbracket], hposition⟩

/-- A bracket that is complete, or a text, becomes a part. -/
theorem divides_concat {frames frames' : List Frame} (nodes : List Node) {part : Part}
    (hblocks : openBlocks [] (chunks.map (·.part)) = some (Frame.kinds frames))
    (hpart : part.Spelled (tail.map (·.kind)))
    (hopen : openBlocks (Frame.kinds frames) [part] = some (Frame.kinds frames')) :
    ∃ chunks' tail', (⟨frames', nodes, .content⟩ : Draft).Divides chunks' tail' ∧
      chunks'.flatMap (·.tokens) ++ tail' = chunks.flatMap (·.tokens) ++ tail := by
  refine ⟨chunks ++ [⟨part, tail, hpart⟩], [], ⟨?_, rfl, by rintro _ ⟨⟩⟩, by simp⟩
  rw [List.map_append, openBlocks_append, hblocks]
  exact hopen

/-- A tag that takes effect becomes a part. -/
theorem Divides.settle (h : d.Divides chunks tail) (hsettle : d.settle = .ok d') :
    ∃ chunks' tail', d'.Divides chunks' tail' ∧
      chunks'.flatMap (·.tokens) ++ tail' = chunks.flatMap (·.tokens) ++ tail := by
  obtain ⟨frames, nodes, spot⟩ := d
  obtain ⟨hblocks, hspelled, hopened⟩ := h
  unfold Draft.settle at hsettle
  split at hsettle
  · rename_i opened tag hspot
    cases hsettle
    cases hspot
    have htag : (Part.tag (.opens tag)).Spelled (tail.map (·.kind)) := hspelled
    exact divides_concat _ hblocks htag rfl
  · rename_i opened kind hspot
    cases hspot
    split at hsettle
    · cases hsettle
    · rename_i frame outer hframes
      cases hframes
      split at hsettle
      · rename_i hkind
        cases hsettle
        have htag : (Part.tag (.closes kind)).Spelled (tail.map (·.kind)) := hspelled
        exact divides_concat _ hblocks htag (by simp [openBlocks, Frame.kinds, hkind])
      · cases hsettle
  · cases hsettle
    exact ⟨chunks, tail, ⟨hblocks, hspelled, hopened⟩, rfl⟩

/-- A token either goes on with the bracket, or ends a part. -/
theorem Divides.take? (h : d.Divides chunks tail) (htake : d.take? t = some d') :
    ∃ chunks' tail', d'.Divides chunks' tail' ∧
      chunks'.flatMap (·.tokens) ++ tail' = chunks.flatMap (·.tokens) ++ (tail ++ [t]) := by
  obtain ⟨frames, nodes, spot⟩ := d
  obtain ⟨hblocks, hspelled, hopened⟩ := h
  unfold Draft.take? at htake
  split at htake
  · rename_i value hspot hkind
    cases htake
    cases hspot
    have htext : (Part.text value).Spelled ((tail ++ [t]).map (·.kind)) := by
      rw [List.map_append, hspelled, List.map_singleton, hkind]
      rfl
    exact divides_concat _ hblocks htext rfl
  · rename_i hspot hkind
    cases htake
    cases hspot
    refine ⟨chunks, tail ++ [t], ⟨hblocks, ?_, by rintro _ ⟨⟩⟩, rfl⟩
    rw [List.map_append, hspelled, List.map_singleton, hkind]
    rfl
  · rename_i hspot hkind
    cases htake
    cases hspot
    rw [Spot.Spelled, List.map_eq_nil_iff] at hspelled
    subst hspelled
    refine ⟨chunks, [t], ⟨hblocks, ⟨[], rfl, by simp [hkind]⟩, ?_⟩, rfl⟩
    rintro _ ⟨⟩
    exact ⟨t, rfl, rfl⟩
  · rename_i spot hspot hkind
    obtain ⟨e, he, rfl⟩ := Option.map_eq_some_iff.1 htake
    cases hspot
    have hexpansion : (Part.expansion e).Spelled ((tail ++ [t]).map (·.kind)) := by
      rw [List.map_append, hspelled, List.map_singleton, hkind]
      rw [Part.Spelled, PathSpot.tokens_expansion? he]
    exact divides_concat _ hblocks hexpansion rfl
  · rename_i spot hspot _
    obtain ⟨spot', hnext, rfl⟩ := Option.map_eq_some_iff.1 htake
    cases hspot
    refine ⟨chunks, tail ++ [t], ⟨hblocks, ?_, by rintro _ ⟨⟩⟩, rfl⟩
    rw [List.map_append, hspelled]
    simp [Spot.Spelled, PathSpot.tokens_next? hnext]
  · rename_i opened spot hspot hkind
    obtain ⟨effect, heffect, rfl⟩ := Option.map_eq_some_iff.1 htake
    cases hspot
    obtain ⟨inside, hinside, htail⟩ := hspelled
    refine ⟨chunks, tail ++ [t], ⟨hblocks, ?_, opened_concat hopened t⟩, rfl⟩
    show effect.Spelled _
    rw [List.map_append, htail, List.map_singleton, hkind]
    exact hinside.effect? heffect
  · rename_i opened spot hspot _
    split at htake
    · cases htake
    · obtain ⟨spot', hnext, rfl⟩ := Option.map_eq_some_iff.1 htake
      cases hspot
      obtain ⟨inside, hinside, htail⟩ := hspelled
      refine ⟨chunks, tail ++ [t], ⟨hblocks, ⟨_, hinside.next? hnext, ?_⟩,
        opened_concat hopened t⟩, rfl⟩
      rw [List.map_append, htail]
      rfl
  · cases htake

theorem Divides.pushAll {tokens : List Token} (h : d.Divides chunks tail)
    (hpush : d.pushAll tokens = .ok d') :
    ∃ chunks' tail', d'.Divides chunks' tail' ∧
      chunks'.flatMap (·.tokens) ++ tail' = chunks.flatMap (·.tokens) ++ tail ++ tokens := by
  induction tokens generalizing d chunks tail with
  | nil =>
    cases hpush
    exact ⟨chunks, tail, h, (List.append_nil _).symm⟩
  | cons t tokens ih =>
    obtain ⟨d₁, hd₁, hpush⟩ := pushAll_cons_eq_ok_iff.1 hpush
    obtain ⟨base, hsettle, htake⟩ := push_eq_ok_iff.1 hd₁
    obtain ⟨_, _, hbase, hsame⟩ := h.settle hsettle
    obtain ⟨_, _, hd, hmore⟩ := hbase.take? htake
    obtain ⟨chunks', tail', hd', htokens⟩ := ih hd hpush
    refine ⟨chunks', tail', hd', ?_⟩
    rw [htokens, hmore, ← List.append_assoc, hsame]
    simp

/-- The tokens that were pushed onto a draft are those of whole parts and of one bracket. -/
theorem divides_of_pushAll {tokens : List Token} (h : empty.pushAll tokens = .ok d) :
    ∃ chunks tail, d.Divides chunks tail ∧ tokens = chunks.flatMap (·.tokens) ++ tail := by
  have hempty : empty.Divides [] [] := ⟨rfl, rfl, by rintro _ ⟨⟩⟩
  obtain ⟨chunks, tail, hd, htokens⟩ := hempty.pushAll h
  exact ⟨chunks, tail, hd, htokens.symm⟩

end Draft

end MailMerge.Markup
